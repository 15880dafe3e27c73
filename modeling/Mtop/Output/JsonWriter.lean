import Mtop.Snapshot
import Mtop.Library.JsonText

/-! The `JsonWriter` of `snapshot_json.cpp`: a stack of first-flags places the commas, a flag after
each key suppresses them. Every balanced run of its calls writes the rendering of one document. -/
namespace Mtop
open Cxx Rfc8259
set_option autoImplicit false

/-! ## Escaping -/

/-- The hexadecimal digits that `%0*x` prints. -/
def hexPadded : ℕ → ℕ → Text
  | 0, _ => []
  | width + 1, n => hexPadded width (n / 16) ++ [Nat.digitChar (n % 16)]

def escapeByte (ch : Char) : Text :=
  if ch = '"' then str "\\\""
  else if ch = '\\' then str "\\\\"
  else if ch = '\x08' then str "\\b"
  else if ch = '\x0c' then str "\\f"
  else if ch = '\n' then str "\\n"
  else if ch = '\r' then str "\\r"
  else if ch = '\t' then str "\\t"
  else if ch.toNat < 0x20 then str "\\u" ++ hexPadded 4 ch.toNat
  else [ch]

def jsonEscape (value : Text) : Text := value.flatMap escapeByte

theorem hexValue_digitChar : ∀ n < 16, hexValue (Nat.digitChar n) = some n := by decide

theorem hex4_hexPadded {n : ℕ} (hn : n < 65536) (rest : Text) :
    hex4 (hexPadded 4 n ++ rest) = some (n, rest) := by
  have h0 := hexValue_digitChar (n / 16 / 16 / 16 % 16) (Nat.mod_lt _ (by omega))
  have h1 := hexValue_digitChar (n / 16 / 16 % 16) (Nat.mod_lt _ (by omega))
  have h2 := hexValue_digitChar (n / 16 % 16) (Nat.mod_lt _ (by omega))
  have h3 := hexValue_digitChar (n % 16) (Nat.mod_lt _ (by omega))
  simp only [hexPadded, List.nil_append, List.cons_append, hex4, h0, h1, h2, h3,
    Option.bind_some, Option.map_some, Option.some.injEq, Prod.mk.injEq, and_true]
  omega

/-- A character below `0x20` is written as one escape and read back from it. -/
theorem escaped_control {ch : Char} (h : ch.toNat < 0x20) (rest : Text) :
    escaped ('u' :: (hexPadded 4 ch.toNat ++ rest)) = some ([ch], rest) := by
  rw [escaped, hex4_hexPadded (by omega), Option.bind_some]
  dsimp only
  rw [if_pos (by omega), utf8, if_pos (by omega), Char.ofNat_toNat]

theorem stringBody_escaped {ch : Char} (text : Text) (fuel : ℕ) (rest : Text)
    (h : escaped (text ++ rest) = some ([ch], rest)) :
    stringBody (fuel + 1) ('\\' :: (text ++ rest)) =
      (stringBody fuel rest).map fun (s, rest) => (ch :: s, rest) := by
  rw [stringBody, if_neg (by decide), if_pos rfl, h, Option.bind_some]
  rfl

/-- What holds of every hexadecimal digit holds of the padded text. -/
theorem forall_mem_hexPadded {P : Char → Prop} (h : ∀ k < 16, P (Nat.digitChar k))
    (width n : ℕ) : ∀ c ∈ hexPadded width n, P c := by
  induction width generalizing n with
  | zero => exact fun _ hc => absurd hc List.not_mem_nil
  | succ width ih =>
    intro c hc
    rcases List.mem_append.mp hc with hc | hc
    · exact ih _ c hc
    · rw [List.mem_singleton.mp hc]
      exact h _ (Nat.mod_lt _ (by omega))

/-- A hexadecimal digit is printable, and neither a quote nor a backslash. -/
theorem hexPadded_plain (width n : ℕ) : ∀ c ∈ hexPadded width n,
    0x20 ≤ c.toNat ∧ c.toNat < 0x80 ∧ c ≠ '"' ∧ c ≠ '\\' :=
  forall_mem_hexPadded (by decide) width n

/-- What the cascade of `json_escape` can write for a byte. -/
theorem escapeByte_cases (ch : Char) :
    (∃ c, escapeByte ch = ['\\', c] ∧ (∀ rest, escaped (c :: rest) = some ([ch], rest)) ∧
      ch.toNat < 0x80 ∧ 0x20 ≤ c.toNat ∧ c.toNat < 0x80) ∨
    (escapeByte ch = '\\' :: 'u' :: hexPadded 4 ch.toNat ∧ ch.toNat < 0x20) ∨
    (escapeByte ch = [ch] ∧ 0x20 ≤ ch.toNat ∧ ch ≠ '"' ∧ ch ≠ '\\') := by
  unfold escapeByte
  split
  · next h =>
    subst h
    exact .inl ⟨'"', by simp, fun _ => rfl, by decide, by decide, by decide⟩
  split
  · next h =>
    subst h
    exact .inl ⟨'\\', by simp, fun _ => rfl, by decide, by decide, by decide⟩
  split
  · next h =>
    subst h
    exact .inl ⟨'b', by simp, fun _ => rfl, by decide, by decide, by decide⟩
  split
  · next h =>
    subst h
    exact .inl ⟨'f', by simp, fun _ => rfl, by decide, by decide, by decide⟩
  split
  · next h =>
    subst h
    exact .inl ⟨'n', by simp, fun _ => rfl, by decide, by decide, by decide⟩
  split
  · next h =>
    subst h
    exact .inl ⟨'r', by simp, fun _ => rfl, by decide, by decide, by decide⟩
  split
  · next h =>
    subst h
    exact .inl ⟨'t', by simp, fun _ => rfl, by decide, by decide, by decide⟩
  split
  · next h => exact .inr (.inl ⟨by simp, h⟩)
  · next hquote hslash _ _ _ _ _ hcontrol =>
    exact .inr (.inr ⟨rfl, not_lt.mp hcontrol, hquote, hslash⟩)

theorem escapeByte_printable (ch : Char) : ∀ b ∈ escapeByte ch, 0x20 ≤ b.toNat := by
  intro b hb
  rcases escapeByte_cases ch with ⟨c, hescape, -, -, hlow, -⟩ | ⟨hescape, -⟩ | ⟨hescape, hlow, -⟩
  · rw [hescape] at hb
    rcases List.mem_cons.mp hb with rfl | hb
    · decide
    · exact List.mem_singleton.mp hb ▸ hlow
  · rw [hescape] at hb
    rcases List.mem_cons.mp hb with rfl | hb
    · decide
    · rcases List.mem_cons.mp hb with rfl | hb
      · decide
      · exact (hexPadded_plain 4 ch.toNat b hb).1
  · rw [hescape] at hb
    exact List.mem_singleton.mp hb ▸ hlow

/-- Escaped bytes are read back one by one. -/
theorem escapeByte_escaping : Escaping escapeByte where
  nonempty ch := by
    rcases escapeByte_cases ch with ⟨c, hescape, -⟩ | ⟨hescape, -⟩ | ⟨hescape, -⟩
    all_goals
      rw [hescape]
      exact List.cons_ne_nil _ _
  step ch fuel t := by
    rcases escapeByte_cases ch with
      ⟨c, hescape, hread, -⟩ | ⟨hescape, hcontrol⟩ | ⟨hescape, hlow, hquote, hslash⟩
    · rw [hescape]
      exact stringBody_escaped [c] fuel t (hread t)
    · rw [hescape]
      exact stringBody_escaped ('u' :: hexPadded 4 ch.toNat) fuel t (escaped_control hcontrol t)
    · rw [hescape, List.singleton_append, stringBody, if_neg hquote, if_neg hslash,
        if_neg (not_lt.mpr hlow)]
  oneLine ch h := absurd (escapeByte_printable ch '\n' h) (by decide)

/-! ## Number documents -/

def uintDoc (n : UInt64) : Doc := .num (natToken n.toNat)

def intDoc (n : ℤ) : Doc := .num (intToken n)

@[simp] theorem uintDoc_value (n : UInt64) : (uintDoc n).value = .num n.toNat := rfl

@[simp] theorem intDoc_value (n : ℤ) : (intDoc n).value = .num n := rfl

/-- Three decimals, and `0.000` for a value that is not finite. -/
def doubleText (d : Double) : Text := if d.isFinite then d.fixedText 3 else str "0.000"

theorem number_doubleText (d : Double) (rest : Text) (hr : Follows rest) :
    number (doubleText d ++ rest) = some (d.roundedTo 3, rest) := by
  unfold doubleText
  split
  · next h => exact number_fixedText 3 (by decide) h hr
  · next h =>
    have hzero := number_fixedText 3 (by decide) (d := .finite false 0) rfl hr
    have ht : Double.fixedText 3 (.finite false 0) = str "0.000" := by decide +kernel
    rw [ht] at hzero
    cases d with
    | finite s q => exact absurd rfl h
    | _ => simpa [Double.roundedTo, Double.roundHalfEven] using hzero

theorem newline_notMem_doubleText (d : Double) : '\n' ∉ doubleText d := by
  unfold doubleText
  split
  · next h => exact newline_notMem_fixedText 3 d h
  · simp

def doubleToken (d : Double) : NumberToken where
  text := doubleText d
  value := d.roundedTo 3
  reads := number_doubleText d
  oneLine := newline_notMem_doubleText d

def doubleDoc (d : Double) : Doc := .num (doubleToken d)

/-- The value rounded to three decimals; `roundedTo` is zero for NaN and the infinities. -/
@[simp] theorem doubleDoc_value (d : Double) : (doubleDoc d).value = .num (d.roundedTo 3) := rfl

/-! ## The writer -/

structure JsonWriter where
  out : Text := []
  /-- Top of the stack first. -/
  firstStack : List Bool := []
  expectingValue : Bool := false

namespace JsonWriter
variable (json : JsonWriter)

def memberPrefix : JsonWriter :=
  match json.firstStack with
  | [] => json
  | first :: rest =>
    { json with out := if first then json.out else json.out ++ [','], firstStack := false :: rest }

def valuePrefix : JsonWriter :=
  if json.expectingValue then { json with expectingValue := false } else json.memberPrefix

def append (text : Text) : JsonWriter := { json with out := json.out ++ text }

def beginObject : JsonWriter :=
  let json := json.valuePrefix.append ['{']
  { json with firstStack := true :: json.firstStack }

def endObject : JsonWriter :=
  let json := json.append ['}']
  { json with firstStack := json.firstStack.tail }

def beginArray : JsonWriter :=
  let json := json.valuePrefix.append ['[']
  { json with firstStack := true :: json.firstStack }

def endArray : JsonWriter :=
  let json := json.append [']']
  { json with firstStack := json.firstStack.tail }

def key (name : String) : JsonWriter :=
  { json.memberPrefix.append ('"' :: (jsonEscape (str name) ++ str "\":")) with expectingValue := true }

def stringValue (value : Text) : JsonWriter :=
  json.valuePrefix.append ('"' :: (jsonEscape value ++ ['"']))

def boolValue (value : Bool) : JsonWriter :=
  json.valuePrefix.append (if value then str "true" else str "false")

def uintValue (value : UInt64) : JsonWriter := json.valuePrefix.append (natText value.toNat)

def intValue (value : ℤ) : JsonWriter := json.valuePrefix.append (intText value)

def doubleValue (value : Double) : JsonWriter :=
  if !value.isFinite then json.valuePrefix.append (str "0.000")
  else json.valuePrefix.append (value.fixedText 3)

/-! ## Documents at a place for a value -/

/-- The writer after one more value. -/
def emit (d : Doc) : JsonWriter := json.valuePrefix.append (d.render escapeByte)

/-- The writer inside a new object with these members. -/
def inObject (ms : List (Text × Doc)) : JsonWriter :=
  { json.valuePrefix.append ('{' :: separated (Doc.memberTexts escapeByte ms)) with
    firstStack := ms.isEmpty :: json.valuePrefix.firstStack }

/-- The writer inside a new array with these elements. -/
def inArray (ds : List Doc) : JsonWriter :=
  { json.valuePrefix.append ('[' :: separated (Doc.renders escapeByte ds)) with
    firstStack := ds.isEmpty :: json.valuePrefix.firstStack }

theorem valuePrefix_expectingValue : json.valuePrefix.expectingValue = false := by
  cases json with
  | mk out firstStack expectingValue => cases expectingValue <;> cases firstStack <;> rfl

theorem valuePrefix_pending (h : json.expectingValue = true) :
    json.valuePrefix = { json with expectingValue := false } := by
  rw [valuePrefix, if_pos h]

theorem valuePrefix_next (h : json.expectingValue = false) :
    json.valuePrefix = json.memberPrefix := by
  rw [valuePrefix, if_neg (by simp [h])]

theorem separated_concat (ts : List Text) (t : Text) :
    separated (ts ++ [t]) = separated ts ++ ((if ts = [] then [] else [',']) ++ t) := by
  cases ts with
  | nil => simp [separated]
  | cons u us => simp [separated]

/-! ## What each call does at a place for a value -/

@[simp] theorem beginObject_eq : json.beginObject = json.inObject [] := rfl

@[simp] theorem beginArray_eq : json.beginArray = json.inArray [] := rfl

@[simp] theorem stringValue_eq (value : Text) : json.stringValue value = json.emit (.str value) := rfl

@[simp] theorem boolValue_eq (value : Bool) : json.boolValue value = json.emit (.bool value) := rfl

@[simp] theorem uintValue_eq (value : UInt64) : json.uintValue value = json.emit (uintDoc value) := rfl

@[simp] theorem intValue_eq (value : ℤ) : json.intValue value = json.emit (intDoc value) := rfl

@[simp] theorem doubleValue_eq (value : Double) :
    json.doubleValue value = json.emit (doubleDoc value) := by
  change _ = json.valuePrefix.append (doubleText value)
  unfold doubleValue doubleText
  cases value.isFinite <;> rfl

@[simp] theorem endObject_inObject (ms : List (Text × Doc)) :
    (json.inObject ms).endObject = json.emit (.obj ms) := by
  simp [endObject, inObject, append, emit, Doc.render]

@[simp] theorem endArray_inArray (ds : List Doc) :
    (json.inArray ds).endArray = json.emit (.arr ds) := by
  simp [endArray, inArray, append, emit, Doc.render]

/-- A key and a value inside an object add one member. -/
@[simp] theorem emit_key (ms : List (Text × Doc)) (name : String) (d : Doc) :
    ((json.inObject ms).key name).emit d = json.inObject (ms ++ [(str name, d)]) := by
  have hprefix := json.valuePrefix_expectingValue
  unfold emit inObject
  rw [Doc.memberTexts_eq, Doc.memberTexts_eq, List.map_append, List.map_singleton,
    separated_concat]
  cases ms with
  | nil =>
    simp [key, memberPrefix, append, valuePrefix_pending, jsonEscape, quote, hprefix]
  | cons m ms =>
    simp [key, memberPrefix, append, valuePrefix_pending, jsonEscape, quote, hprefix]

/-- A value inside an array adds one element. -/
@[simp] theorem emit_inArray (ds : List Doc) (d : Doc) :
    (json.inArray ds).emit d = json.inArray (ds ++ [d]) := by
  have hprefix := json.valuePrefix_expectingValue
  unfold emit inArray
  rw [Doc.renders_eq, Doc.renders_eq, List.map_append, List.map_singleton, separated_concat]
  cases ds with
  | nil => simp [valuePrefix_next, memberPrefix, append, hprefix]
  | cons d' ds => simp [valuePrefix_next, memberPrefix, append, hprefix]

/-- A loop whose body writes one value adds one element a step. -/
theorem foldl_inArray {α : Type} {f : JsonWriter → α → JsonWriter} {g : α → Doc}
    (h : ∀ json x, f json x = json.emit (g x)) (xs : List α) (ds : List Doc) :
    xs.foldl f (json.inArray ds) = json.inArray (ds ++ xs.map g) := by
  induction xs generalizing ds with
  | nil => rw [List.foldl_nil, List.map_nil, List.append_nil]
  | cons x xs ih => rw [List.foldl_cons, h, emit_inArray, ih, List.map_cons, List.append_assoc,
      List.singleton_append]

end JsonWriter
end Mtop
