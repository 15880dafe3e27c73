import Mtop.Output.SnapshotDoc

/-! `snapshot_session.cpp`: the JSON lines of a session, put together from string pieces around the
escaped texts and the snapshot. -/
namespace Mtop
open Cxx Rfc8259
set_option autoImplicit false

structure SnapshotSessionInfo where
  sessionId : Text := []
  label : Text := []
  startedUnixMs : UInt64 := 0

def makeSessionId (startedUnixMs : UInt64) : Text := str "mtop-" ++ natText startedUnixMs.toNat

def sessionStartJson (session : SnapshotSessionInfo) : Text :=
  str "\x7b\"event\":\"session_start\",\"schema_version\":2,\"session_id\":\"" ++
    jsonEscape session.sessionId ++ str "\",\"label\":\"" ++ jsonEscape session.label ++
    str "\",\"started_unix_ms\":" ++ natText session.startedUnixMs.toNat ++ str "\x7d"

def sessionSnapshotJson (snapshotJson : Text) : Text :=
  if snapshotJson = [] ∨ snapshotJson.head? ≠ some '{' then
    str "\x7b\"event\":\"snapshot\",\"schema_version\":2,\"snapshot\":null\x7d"
  else str "\x7b\"event\":\"snapshot\",\"schema_version\":2,\"snapshot\":" ++ snapshotJson ++ str "\x7d"

def sessionEndJson (session : SnapshotSessionInfo) (endedUnixMs : UInt64) : Text :=
  let durationMs :=
    if endedUnixMs ≥ session.startedUnixMs then endedUnixMs - session.startedUnixMs else 0
  str "\x7b\"event\":\"session_end\",\"schema_version\":2,\"session_id\":\"" ++
    jsonEscape session.sessionId ++ str "\",\"ended_unix_ms\":" ++ natText endedUnixMs.toNat ++
    str ",\"duration_ms\":" ++ natText durationMs.toNat ++ str "\x7d"

/-! ## The documents of the three events -/

def sessionStartDoc (session : SnapshotSessionInfo) : Doc :=
  .obj [(str "event", .str (str "session_start")),
    (str "schema_version", intDoc 2),
    (str "session_id", .str session.sessionId),
    (str "label", .str session.label),
    (str "started_unix_ms", uintDoc session.startedUnixMs)]

def sessionSnapshotDoc (snapshot : Doc) : Doc :=
  .obj [(str "event", .str (str "snapshot")),
    (str "schema_version", intDoc 2),
    (str "snapshot", snapshot)]

def sessionEndDoc (session : SnapshotSessionInfo) (endedUnixMs : UInt64) : Doc :=
  .obj [(str "event", .str (str "session_end")),
    (str "schema_version", intDoc 2),
    (str "session_id", .str session.sessionId),
    (str "ended_unix_ms", uintDoc endedUnixMs),
    (str "duration_ms", uintDoc
      (if endedUnixMs ≥ session.startedUnixMs then endedUnixMs - session.startedUnixMs else 0))]

theorem escapeByte_plain {c : Char} (h : c ≠ '"' ∧ c ≠ '\\' ∧ 0x20 ≤ c.toNat) :
    escapeByte c = [c] := by
  have hne : ∀ d : Char, d.toNat < 0x20 → c ≠ d := by
    rintro d hd rfl
    omega
  unfold escapeByte
  rw [if_neg h.1, if_neg h.2.1, if_neg (hne _ (by decide)), if_neg (hne _ (by decide)),
    if_neg (hne _ (by decide)), if_neg (hne _ (by decide)), if_neg (hne _ (by decide)),
    if_neg (by omega)]

section Events
variable (session : SnapshotSessionInfo)

theorem sessionStartJson_eq :
    sessionStartJson session = (sessionStartDoc session).render escapeByte := by
  have htwo : intText 2 = ['2'] := by decide
  simp (disch := decide) [sessionStartJson, sessionStartDoc, Doc.render, Doc.memberTexts, separated,
    quote, jsonEscape, intDoc, intToken, uintDoc, natToken, escapeByte_plain, htwo]

theorem sessionEndJson_eq (endedUnixMs : UInt64) :
    sessionEndJson session endedUnixMs = (sessionEndDoc session endedUnixMs).render escapeByte := by
  have htwo : intText 2 = ['2'] := by decide
  simp (disch := decide) [sessionEndJson, sessionEndDoc, Doc.render, Doc.memberTexts, separated,
    quote, jsonEscape, intDoc, intToken, uintDoc, natToken, escapeByte_plain, htwo]

/-- The text of an object is wrapped, never replaced by the null fallback. -/
theorem sessionSnapshotJson_obj (members : List (Text × Doc)) :
    sessionSnapshotJson ((Doc.obj members).render escapeByte) =
      (sessionSnapshotDoc (.obj members)).render escapeByte := by
  have htwo : intText 2 = ['2'] := by decide
  rw [sessionSnapshotJson, if_neg (by simp [Doc.render])]
  simp (disch := decide) [sessionSnapshotDoc, Doc.render, Doc.memberTexts, separated, quote,
    intDoc, intToken, escapeByte_plain, htwo]

end Events
end Mtop
