import Mtop.Library.JsonNumber
import Mathlib.Data.List.Forall2

/-! Documents that are written without white space and read back by the RFC 8259 reader. A number
carries its own text with the proof that it reads back; strings go through an escaping that is
correct one character at a time. -/
namespace Rfc8259
open Cxx
set_option autoImplicit false

/-! ## Strings -/

/-- Each character is written as text that reads back as that character, in one step. -/
structure Escaping (esc : Char → Text) : Prop where
  nonempty : ∀ c, esc c ≠ []
  step : ∀ c fuel t, stringBody (fuel + 1) (esc c ++ t) =
    (stringBody fuel t).map fun (s, rest) => (c :: s, rest)
  oneLine : ∀ c, '\n' ∉ esc c

def quote (esc : Char → Text) (s : Text) : Text := '"' :: (s.flatMap esc ++ ['"'])

theorem Escaping.stringBody {esc : Char → Text} (h : Escaping esc) (s rest : Text) {fuel : ℕ}
    (hf : s.length < fuel) :
    stringBody fuel (s.flatMap esc ++ '"' :: rest) = some (s, rest) := by
  induction s generalizing fuel with
  | nil =>
    cases fuel with
    | zero => cases hf
    | succ fuel => rfl
  | cons c s ih =>
    cases fuel with
    | zero => cases hf
    | succ fuel =>
      rw [List.flatMap_cons, List.append_assoc, h.step, ih (Nat.lt_of_succ_lt_succ hf)]
      rfl

theorem Escaping.length_le {esc : Char → Text} (h : Escaping esc) (s : Text) :
    s.length ≤ (s.flatMap esc).length := by
  induction s with
  | nil => exact Nat.le_refl _
  | cons c s ih =>
    have := List.length_pos_of_ne_nil (h.nonempty c)
    rw [List.flatMap_cons, List.length_append, List.length_cons]
    omega

/-! ## Comma-separated items -/

def separated : List Text → Text
  | [] => []
  | t :: ts => t ++ ts.flatMap fun u => ',' :: u

theorem separated_cons_cons (t u : Text) (ts : List Text) :
    separated (t :: u :: ts) = t ++ ',' :: separated (u :: ts) := by
  simp [separated]

theorem length_le_separated {ts : List Text} (h : ∀ t ∈ ts, t ≠ []) :
    ts.length ≤ (separated ts).length := by
  induction ts with
  | nil => exact Nat.le_refl _
  | cons t ts ih =>
    have ht := List.length_pos_of_ne_nil (h t List.mem_cons_self)
    have hts := ih fun u hu => h u (List.mem_cons_of_mem _ hu)
    cases ts with
    | nil =>
      simp only [separated, List.flatMap_nil, List.append_nil, List.length_cons, List.length_nil]
      omega
    | cons u ts =>
      simp only [separated_cons_cons, List.length_append, List.length_cons] at hts ⊢
      omega

theorem length_le_of_mem_separated {ts : List Text} {t : Text} (h : t ∈ ts) :
    t.length ≤ (separated ts).length := by
  induction ts with
  | nil => cases h
  | cons u ts ih =>
    cases ts with
    | nil =>
      rw [List.mem_singleton.mp h]
      simp [separated]
    | cons v ts =>
      rw [separated_cons_cons, List.length_append, List.length_cons]
      rcases List.mem_cons.mp h with rfl | h
      · omega
      · have := ih h
        omega

section Items
variable {α : Type} {item : Text → Option (α × Text)} {close : Char}

/-- The text reads as the value, whatever follows. -/
def ItemReads (item : Text → Option (α × Text)) (text : Text) (x : α) : Prop :=
  ∀ rest, Follows rest → item (text ++ rest) = some (x, rest)

theorem commaList_separated (hc : close = ']' ∨ close = '}') {texts : List Text} {xs : List α}
    (h : List.Forall₂ (ItemReads item) texts xs) (hne : texts ≠ []) {fuel : ℕ}
    (hf : texts.length ≤ fuel) (rest : Text) :
    commaList item close fuel (separated texts ++ close :: rest) = some (xs, rest) := by
  have hws : isWs close = false := by rcases hc with rfl | rfl <;> decide
  have hcomma : close ≠ ',' := by rcases hc with rfl | rfl <;> decide
  induction h generalizing fuel with
  | nil => exact absurd rfl hne
  | @cons t x ts xs ht hts ih =>
    cases fuel with
    | zero => cases hf
    | succ fuel =>
      cases hts with
      | nil =>
        have hsep : separated [t] = t := by simp [separated]
        rw [hsep, commaList, ht _ (follows_close hc rest), Option.bind_some]
        dsimp only
        rw [expect_cons hws, if_neg hcomma, expect_cons hws, if_pos rfl]
        rfl
      | @cons u y us ys hu hus =>
        have hcons := ih (List.cons_ne_nil _ _) (Nat.le_of_succ_le_succ hf)
        rw [separated_cons_cons, List.append_assoc, List.cons_append, commaList,
          ht _ (follows_comma _), Option.bind_some]
        dsimp only
        rw [expect_cons (by decide), if_pos rfl]
        dsimp only
        rw [hcons]
        rfl

/-- A bracketed list reads back when no item can be taken for the closing bracket. -/
theorem bracketed_separated (hc : close = ']' ∨ close = '}') {texts : List Text} {xs : List α}
    (h : List.Forall₂ (ItemReads item) texts xs)
    (hs : ∀ t ∈ texts, ∀ rest, expect close (t ++ rest) = none) {fuel : ℕ}
    (hf : texts.length ≤ fuel) (rest : Text) :
    bracketed item close fuel (separated texts ++ close :: rest) = some (xs, rest) := by
  have hws : isWs close = false := by rcases hc with rfl | rfl <;> decide
  cases h with
  | nil =>
    rw [bracketed, show separated [] ++ close :: rest = close :: rest from rfl, expect_cons hws,
      if_pos rfl]
  | @cons t x ts xs ht hts =>
    have hopen : expect close (separated (t :: ts) ++ close :: rest) = none := by
      rw [separated, List.append_assoc]
      exact hs t List.mem_cons_self _
    rw [bracketed, hopen]
    exact commaList_separated hc (.cons ht hts) (List.cons_ne_nil _ _) hf rest

end Items

/-! ## Documents -/

inductive Doc where
  | null
  | bool (value : Bool)
  | num (token : NumberToken)
  | str (value : Text)
  | arr (elements : List Doc)
  | obj (members : List (Text × Doc))

mutual
/-- The tree that a document stands for. -/
def Doc.value : Doc → Json
  | .null => .null
  | .bool b => .bool b
  | .num n => .num n.value
  | .str s => .str s
  | .arr ds => .arr (Doc.values ds)
  | .obj ms => .obj (Doc.memberValues ms)

def Doc.values : List Doc → List Json
  | [] => []
  | d :: ds => d.value :: Doc.values ds

def Doc.memberValues : List (Text × Doc) → List (Text × Json)
  | [] => []
  | (k, d) :: ms => (k, d.value) :: Doc.memberValues ms
end

@[simp] theorem Doc.values_eq (ds : List Doc) : Doc.values ds = ds.map Doc.value := by
  induction ds with
  | nil => rfl
  | cons d ds ih => rw [Doc.values, ih, List.map_cons]

@[simp] theorem Doc.memberValues_eq (ms : List (Text × Doc)) :
    Doc.memberValues ms = ms.map fun m => (m.1, m.2.value) := by
  induction ms with
  | nil => rfl
  | cons m ms ih => rw [Doc.memberValues, ih, List.map_cons]

theorem Doc.keysOnce_map {α : Type} {f : α → Doc} (h : ∀ a, (f a).value.KeysOnce) (l : List α) :
    (Doc.arr (l.map f)).value.KeysOnce := by
  rw [Doc.value, Doc.values_eq]
  exact .arr (List.forall_mem_map.mpr (List.forall_mem_map.mpr fun a _ => h a))

theorem Doc.keysOnce_obj {ms : List (Text × Doc)} (hn : (ms.map Prod.fst).Nodup)
    (h : ∀ m ∈ ms, m.2.value.KeysOnce) : (Doc.obj ms).value.KeysOnce := by
  rw [Doc.value, Doc.memberValues_eq]
  refine .obj ?_ (List.forall_mem_map.mpr h)
  rw [List.map_map]
  exact hn

@[simp] theorem Doc.keysOnce_str (s : Text) : (Doc.str s).value.KeysOnce := .str s

@[simp] theorem Doc.keysOnce_bool (b : Bool) : (Doc.bool b).value.KeysOnce := .bool b

@[simp] theorem keysOnce_num (q : ℚ) : (Json.num q).KeysOnce := .num q

/-- Induction over a document, with the hypothesis for every element and every member. -/
@[elab_as_elim, induction_eliminator]
theorem Doc.induction {P : Doc → Prop} (null : P .null) (bool : ∀ b, P (.bool b))
    (num : ∀ n, P (.num n)) (str : ∀ s, P (.str s)) (arr : ∀ ds, (∀ d ∈ ds, P d) → P (.arr ds))
    (obj : ∀ ms : List (Text × Doc), (∀ m ∈ ms, P m.2) → P (.obj ms)) (d : Doc) : P d :=
  @Doc.rec P (fun ds => ∀ d ∈ ds, P d) (fun ms => ∀ m ∈ ms, P m.2) (fun m => P m.2)
    null bool num str arr obj (fun _ h => absurd h List.not_mem_nil)
    (fun _ _ hd hds _ h => (List.mem_cons.mp h).elim (fun e => e ▸ hd) (hds _))
    (fun _ h => absurd h List.not_mem_nil)
    (fun _ _ hm hms _ h => (List.mem_cons.mp h).elim (fun e => e ▸ hm) (hms _))
    (fun _ _ hd => hd) d

section Render
variable (esc : Char → Text)

mutual
def Doc.render : Doc → Text
  | .null => Cxx.str "null"
  | .bool b => if b then Cxx.str "true" else Cxx.str "false"
  | .num n => n.text
  | .str s => quote esc s
  | .arr ds => '[' :: (separated (Doc.renders ds) ++ [']'])
  | .obj ms => '{' :: (separated (Doc.memberTexts ms) ++ ['}'])

def Doc.renders : List Doc → List Text
  | [] => []
  | d :: ds => d.render :: Doc.renders ds

def Doc.memberTexts : List (Text × Doc) → List Text
  | [] => []
  | (k, d) :: ms => (quote esc k ++ ':' :: d.render) :: Doc.memberTexts ms
end

theorem Doc.renders_eq (ds : List Doc) : Doc.renders esc ds = ds.map (Doc.render esc) := by
  induction ds with
  | nil => rfl
  | cons d ds ih => rw [Doc.renders, ih, List.map_cons]

theorem Doc.memberTexts_eq (ms : List (Text × Doc)) : Doc.memberTexts esc ms =
    ms.map fun m => quote esc m.1 ++ ':' :: m.2.render esc := by
  induction ms with
  | nil => rfl
  | cons m ms ih => rw [Doc.memberTexts, ih, List.map_cons]

/-- The text reads as the value, and does not start like a closing bracket. -/
structure Reads (text : Text) (v : Json) : Prop where
  starts : ∃ c t, text = c :: t ∧ isWs c = false ∧ c ≠ ']' ∧ c ≠ '}'
  value : ∀ fuel, text.length ≤ fuel → ItemReads (value fuel) text v

theorem Reads.ne_nil {text : Text} {v : Json} (h : Reads text v) : text ≠ [] := by
  obtain ⟨c, t, rfl, -⟩ := h.starts
  exact List.cons_ne_nil _ _

theorem Reads.expect_none {text : Text} {v : Json} (h : Reads text v) (rest : Text) :
    expect ']' (text ++ rest) = none := by
  obtain ⟨c, t, rfl, hws, hc, -⟩ := h.starts
  rw [List.cons_append, expect_cons hws, if_neg hc]

theorem reads_word {word t : Text} {c : Char} {v : Json} (hw : word = c :: t)
    (hs : isWs c = false ∧ c ≠ ']' ∧ c ≠ '}')
    (h : ∀ fuel rest, Rfc8259.value (fuel + 1) (c :: (t ++ rest)) = some (v, rest)) :
    Reads word v where
  starts := ⟨c, t, hw, hs⟩
  value fuel hf rest _ := by
    subst hw
    cases fuel with
    | zero => cases hf
    | succ fuel => exact h fuel rest

theorem value_cons {c : Char} (hc : isWs c = false) (fuel : ℕ) (t : Text) :
    Rfc8259.value (fuel + 1) (c :: t) =
      if c = '{' then
        (bracketed (member fuel (Rfc8259.value fuel)) '}' fuel t).map fun (ms, rest) => (.obj ms, rest)
      else if c = '[' then
        (bracketed (Rfc8259.value fuel) ']' fuel t).map fun (vs, rest) => (.arr vs, rest)
      else if c = '"' then (stringBody fuel t).map fun (s, rest) => (.str s, rest)
      else if c = 't' then literal (str "rue") (.bool true) t
      else if c = 'f' then literal (str "alse") (.bool false) t
      else if c = 'n' then literal (str "ull") .null t
      else (number (c :: t)).map fun (q, rest) => (.num q, rest) := by
  rw [Rfc8259.value, skipWs_cons hc]

variable {esc}

theorem reads_null : Reads (Doc.render esc .null) .null := by
  refine reads_word (c := 'n') (t := str "ull") (by simp [Doc.render]) (by decide) fun fuel rest => ?_
  rw [value_cons (by decide)]
  simp [literal]

theorem reads_bool (b : Bool) : Reads (Doc.render esc (.bool b)) (.bool b) := by
  cases b with
  | true =>
    refine reads_word (c := 't') (t := str "rue") (by simp [Doc.render]) (by decide) fun fuel rest => ?_
    rw [value_cons (by decide)]
    simp [literal]
  | false =>
    refine reads_word (c := 'f') (t := str "alse") (by simp [Doc.render]) (by decide) fun fuel rest => ?_
    rw [value_cons (by decide)]
    simp [literal]

/-- A digit or a minus sign starts no other value. -/
theorem number_head {c : Char} (h : c = '-' ∨ c.isDigit = true) :
    isWs c = false ∧ c ≠ ']' ∧ c ≠ '}' ∧ c ≠ '{' ∧ c ≠ '[' ∧ c ≠ '"' ∧ c ≠ 't' ∧ c ≠ 'f' ∧ c ≠ 'n' := by
  have hne : ∀ d : Char, d ≠ '-' → d.isDigit = false → c ≠ d := by
    rintro d hd hdigit rfl
    rcases h with rfl | h
    · exact hd rfl
    · rw [hdigit] at h
      cases h
  refine ⟨?_, hne _ (by decide) (by decide), hne _ (by decide) (by decide),
    hne _ (by decide) (by decide), hne _ (by decide) (by decide), hne _ (by decide) (by decide),
    hne _ (by decide) (by decide), hne _ (by decide) (by decide), hne _ (by decide) (by decide)⟩
  simp only [isWs, Bool.or_eq_false_iff, decide_eq_false_iff_not]
  exact ⟨⟨⟨hne _ (by decide) (by decide), hne _ (by decide) (by decide)⟩,
    hne _ (by decide) (by decide)⟩, hne _ (by decide) (by decide)⟩

theorem reads_num (n : NumberToken) : Reads (Doc.render esc (.num n)) (.num n.value) := by
  obtain ⟨c, t, ht, hc⟩ := number_starts (List.append_nil n.text ▸ n.reads [] follows_nil)
  obtain ⟨hws, h1, h2, h3, h4, h5, h6, h7, h8⟩ := number_head hc
  refine ⟨⟨c, t, ht, hws, h1, h2⟩, fun fuel hf rest hr => ?_⟩
  have hn := n.reads rest hr
  rw [Doc.render, ht] at hf ⊢
  rw [ht, List.cons_append] at hn
  cases fuel with
  | zero => cases hf
  | succ fuel =>
    rw [List.cons_append, value_cons hws, if_neg h3, if_neg h4, if_neg h5, if_neg h6, if_neg h7,
      if_neg h8, hn]
    rfl

variable (h : Escaping esc)
include h

theorem reads_str (s : Text) : Reads (Doc.render esc (.str s)) (.str s) := by
  refine ⟨⟨'"', _, rfl, by decide⟩, fun fuel hf rest _ => ?_⟩
  cases fuel with
  | zero => cases hf
  | succ fuel =>
    have hlen := h.length_le s
    rw [Doc.render, quote, List.length_cons, List.length_append, List.length_singleton] at hf
    rw [Doc.render, quote, List.cons_append, value_cons (by decide), if_neg (by decide),
      if_neg (by decide), if_pos rfl, List.append_assoc, List.singleton_append,
      h.stringBody s rest (by omega)]
    rfl

omit h in
theorem forall₂_map {α β γ : Type} {R : β → γ → Prop} {f : α → β} {g : α → γ} {l : List α}
    (hl : ∀ a ∈ l, R (f a) (g a)) : List.Forall₂ R (l.map f) (l.map g) := by
  rw [List.forall₂_map_left_iff, List.forall₂_map_right_iff, List.forall₂_same]
  exact hl

omit h in
theorem reads_arr {ds : List Doc} (hd : ∀ d ∈ ds, Reads (d.render esc) d.value) :
    Reads (Doc.render esc (.arr ds)) (Doc.value (.arr ds)) := by
  rw [Doc.render, Doc.renders_eq, Doc.value, Doc.values_eq]
  refine ⟨⟨'[', _, rfl, by decide⟩, fun fuel hf rest _ => ?_⟩
  cases fuel with
  | zero => cases hf
  | succ fuel =>
    rw [List.length_cons, List.length_append, List.length_singleton] at hf
    have hcount : (ds.map (Doc.render esc)).length ≤ (separated (ds.map (Doc.render esc))).length :=
      length_le_separated (List.forall_mem_map.mpr fun d hm => (hd d hm).ne_nil)
    have hitems : List.Forall₂ (ItemReads (Rfc8259.value fuel)) (ds.map (Doc.render esc))
        (ds.map Doc.value) := forall₂_map fun d hm => (hd d hm).value fuel (by
      have := length_le_of_mem_separated (List.mem_map_of_mem (f := Doc.render esc) hm)
      omega)
    have hstart : ∀ t ∈ ds.map (Doc.render esc), ∀ rest, expect ']' (t ++ rest) = none :=
      List.forall_mem_map.mpr fun d hm => (hd d hm).expect_none
    rw [List.cons_append, value_cons (by decide), if_neg (by decide), if_pos rfl,
      List.append_assoc, List.singleton_append,
      bracketed_separated (.inl rfl) hitems hstart (by omega)]
    rfl

/-- A quoted name, a colon and a value read as a member. -/
theorem member_reads {fuel : ℕ} {name text : Text} {v : Json} (ht : Reads text v)
    (hf : (quote esc name ++ ':' :: text).length ≤ fuel) :
    ItemReads (member fuel (Rfc8259.value fuel)) (quote esc name ++ ':' :: text) (name, v) := by
  intro rest hr
  have hlen := h.length_le name
  simp only [quote, List.length_append, List.length_cons, List.length_nil] at hf
  rw [member, quote, List.cons_append, List.cons_append, expect_cons (by decide), if_pos rfl,
    Option.bind_some, List.append_assoc, List.append_assoc, List.singleton_append,
    h.stringBody name _ (by omega), Option.bind_some]
  dsimp only
  rw [List.cons_append, expect_cons (by decide), if_pos rfl, Option.bind_some,
    ht.value fuel (by omega) rest hr]
  rfl

theorem reads_obj {ms : List (Text × Doc)} (hm : ∀ m ∈ ms, Reads (m.2.render esc) m.2.value) :
    Reads (Doc.render esc (.obj ms)) (Doc.value (.obj ms)) := by
  rw [Doc.render, Doc.memberTexts_eq, Doc.value, Doc.memberValues_eq]
  refine ⟨⟨'{', _, rfl, by decide⟩, fun fuel hf rest _ => ?_⟩
  cases fuel with
  | zero => cases hf
  | succ fuel =>
    rw [List.length_cons, List.length_append, List.length_singleton] at hf
    have hcount : (ms.map fun m => quote esc m.1 ++ ':' :: m.2.render esc).length ≤
        (separated (ms.map fun m => quote esc m.1 ++ ':' :: m.2.render esc)).length :=
      length_le_separated (List.forall_mem_map.mpr fun m _ => List.cons_ne_nil _ _)
    have hitems : List.Forall₂ (ItemReads (member fuel (Rfc8259.value fuel)))
        (ms.map fun m => quote esc m.1 ++ ':' :: m.2.render esc)
        (ms.map fun m => (m.1, m.2.value)) := forall₂_map fun m hmem => member_reads h (hm m hmem) (by
      have := length_le_of_mem_separated
        (List.mem_map_of_mem (f := fun m : Text × Doc => quote esc m.1 ++ ':' :: m.2.render esc) hmem)
      omega)
    have hstart : ∀ t ∈ ms.map fun m => quote esc m.1 ++ ':' :: m.2.render esc,
        ∀ rest, expect '}' (t ++ rest) = none := List.forall_mem_map.mpr fun m _ rest => by
      rw [quote, List.cons_append, List.cons_append, expect_cons (by decide), if_neg (by decide)]
    rw [List.cons_append, value_cons (by decide), if_pos rfl, List.append_assoc,
      List.singleton_append, bracketed_separated (.inr rfl) hitems hstart (by omega)]
    rfl

/-- A rendered document reads back as its tree. -/
theorem Doc.reads (d : Doc) : Reads (d.render esc) d.value := by
  induction d with
  | null => exact reads_null
  | bool b => exact reads_bool b
  | num n => exact reads_num n
  | str s => exact reads_str h s
  | arr ds ih => exact reads_arr ih
  | obj ms ih => exact reads_obj h ih

theorem parse_render (d : Doc) : parse (d.render esc) = some d.value := by
  have hv := (d.reads h).value ((d.render esc).length + 1) (Nat.le_succ _) [] follows_nil
  rw [List.append_nil] at hv
  rw [parse, hv]
  rfl

/-! ## Every character -/

omit h

/-- The characters of a document outside strings and numbers. -/
def marks : Text := Cxx.str "[]\x7b\x7d:,\"" ++ Cxx.str "null" ++ Cxx.str "true" ++ Cxx.str "false"

section Characters
variable {P : Char → Prop} (hmarks : ∀ c ∈ marks, P c) (hesc : ∀ c, ∀ b ∈ esc c, P b)
include hmarks

theorem forall_mem_separated {ts : List Text} (ht : ∀ t ∈ ts, ∀ c ∈ t, P c) :
    ∀ c ∈ separated ts, P c := by
  cases ts with
  | nil => exact fun _ hc => absurd hc List.not_mem_nil
  | cons t ts =>
    intro c hc
    rw [separated, List.mem_append, List.mem_flatMap] at hc
    rcases hc with hc | ⟨u, hu, hc⟩
    · exact ht t List.mem_cons_self c hc
    · rcases List.mem_cons.mp hc with rfl | hc
      · exact hmarks _ (by simp [marks])
      · exact ht u (List.mem_cons_of_mem _ hu) c hc

include hesc

theorem forall_mem_quote (s : Text) : ∀ c ∈ quote esc s, P c := by
  intro c hc
  rw [quote, List.mem_cons, List.mem_append, List.mem_flatMap, List.mem_singleton] at hc
  rcases hc with rfl | ⟨d, -, hd⟩ | rfl
  · exact hmarks _ (by simp [marks])
  · exact hesc d c hd
  · exact hmarks _ (by simp [marks])

/-- What holds of the marks, the escapes and the number texts holds of a rendered document. -/
theorem Doc.forall_mem_render (hnum : ∀ n : NumberToken, ∀ c ∈ n.text, P c) (d : Doc) :
    ∀ c ∈ d.render esc, P c := by
  induction d with
  | null =>
    intro c hc
    exact hmarks c (List.mem_append_left _ (List.mem_append_left _ (List.mem_append_right _ hc)))
  | bool b =>
    intro c hc
    cases b with
    | true => exact hmarks c (List.mem_append_left _ (List.mem_append_right _ hc))
    | false => exact hmarks c (List.mem_append_right _ hc)
  | num n => exact hnum n
  | str s => exact forall_mem_quote hmarks hesc s
  | arr ds ih =>
    intro c hc
    rw [Doc.render, Doc.renders_eq, List.mem_cons, List.mem_append, List.mem_singleton] at hc
    rcases hc with rfl | hc | rfl
    · exact hmarks _ (by simp [marks])
    · exact forall_mem_separated hmarks (List.forall_mem_map.mpr ih) c hc
    · exact hmarks _ (by simp [marks])
  | obj ms ih =>
    intro c hc
    rw [Doc.render, Doc.memberTexts_eq, List.mem_cons, List.mem_append, List.mem_singleton] at hc
    rcases hc with rfl | hc | rfl
    · exact hmarks _ (by simp [marks])
    · refine forall_mem_separated hmarks (List.forall_mem_map.mpr fun m hm c hc => ?_) c hc
      rw [List.mem_append, List.mem_cons] at hc
      rcases hc with hq | rfl | hv
      · exact forall_mem_quote hmarks hesc m.1 c hq
      · exact hmarks _ (by simp [marks])
      · exact ih m hm c hv
    · exact hmarks _ (by simp [marks])

end Characters

/-- A rendered document has no line break. -/
theorem Doc.newline_notMem_render (h : Escaping esc) (d : Doc) : '\n' ∉ d.render esc := by
  have hmarks : ∀ c ∈ marks, c ≠ '\n' := fun c hc => ne_of_mem_of_not_mem hc (by simp [marks])
  refine fun hmem => Doc.forall_mem_render hmarks (fun c b hb => ?_) (fun n c hc => ?_) d _ hmem rfl
  · exact ne_of_mem_of_not_mem hb (h.oneLine c)
  · exact ne_of_mem_of_not_mem hc n.oneLine

end Render

end Rfc8259
