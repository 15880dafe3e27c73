import Mtop.Library.Lockstep

/-! A machine that reads its inputs off a stream of symbols. Where the stream is the encoding of some
tokens, its runs are those of the machine that is handed the tokens themselves. -/
namespace Machine
set_option autoImplicit false

/-- A move as it stands, or one that is made of what is read next. -/
inductive Cue (Input Move : Type) where
  | ready (m : Move)
  | read (use : Input → Move)

section Feed
variable {State Move Sym Token Input Out : Type} (step : Move → State → Option State)
  (next : List Sym → Input × List Sym)

/-- The state together with the symbols that are not read yet. -/
def fedStep : Cue Input Move → State × List Sym → Option (State × List Sym)
  | .ready m, (s, symbols) => (step m s).map (·, symbols)
  | .read use, (s, symbols) => (step (use (next symbols).1) s).map (·, (next symbols).2)

/-- What the enabled moves put out. -/
def fedEmit (emit : State → Move → List Out) (fed : State × List Sym) : Cue Input Move → List Out
  | .ready m => emit fed.1 m
  | .read use => emit fed.1 (use (next fed.2).1)

/-- The moves that come of the inputs in turn, and of `idle` after the last one. -/
def movesOf (idle : Input) : List (Cue Input Move) → List Input → List Move
  | [], _ => []
  | .ready m :: cues, inputs => m :: movesOf idle cues inputs
  | .read use :: cues, [] => use idle :: movesOf idle cues []
  | .read use :: cues, input :: inputs => use input :: movesOf idle cues inputs

def Cue.reads : Cue Input Move → Bool
  | .ready _ => false
  | .read _ => true

variable {step next} {encode : Token → List Sym} {meaning : Token → Input} {idle : Input}

/-- Feeding with the encoding is feeding with the meaning, and only the tokens that were asked for are
gone from the stream. -/
theorem run_fed (hnext : ∀ token rest, next (encode token ++ rest) = (meaning token, rest))
    (hidle : next [] = (idle, [])) (cues : List (Cue Input Move)) (tokens : List Token) (s : State) :
    run (fedStep step next) cues (s, tokens.flatMap encode) =
      (run step (movesOf idle cues (tokens.map meaning)) s).map
        (·, (tokens.drop (cues.countP Cue.reads)).flatMap encode) := by
  induction cues generalizing tokens s with
  | nil => rfl
  | cons cue cues ih =>
    cases cue with
    | ready m =>
      rw [movesOf, run, run, fedStep, Option.bind_map, Option.map_bind]
      exact congrArg _ (funext fun s' => ih tokens s')
    | read use =>
      rw [run, fedStep, Option.bind_map]
      cases tokens with
      | nil =>
        rw [List.flatMap_nil, hidle, List.map_nil, movesOf, run, Option.map_bind, List.drop_nil]
        refine congrArg _ (funext fun s' => ?_)
        have hrest := ih [] s'
        rwa [List.drop_nil] at hrest
      | cons token tokens =>
        have hcount : (Cue.read use :: cues).countP Cue.reads = cues.countP Cue.reads + 1 :=
          List.countP_cons_of_pos rfl
        rw [List.flatMap_cons, hnext, List.map_cons, movesOf, run, Option.map_bind, hcount,
          List.drop_succ_cons]
        exact congrArg _ (funext fun s' => ih tokens s')

/-- A cue that makes this move, and leaves these symbols if it is enabled. -/
theorem trace_fed_cons {emit : State → Move → List Out} {s : State} {symbols left : List Sym}
    {cue : Cue Input Move} {cues : List (Cue Input Move)} {m : Move} {ms : List Move}
    (hstep : fedStep step next cue (s, symbols) = (step m s).map (·, left))
    (hemit : fedEmit next emit (s, symbols) cue = emit s m)
    (hrest : ∀ s', trace (fedStep step next) (fedEmit next emit) cues (s', left) =
      trace step emit ms s') :
    trace (fedStep step next) (fedEmit next emit) (cue :: cues) (s, symbols) =
      trace step emit (m :: ms) s := by
  rw [trace, trace, hstep, hemit]
  cases step m s with
  | none => rfl
  | some s' => exact congrArg _ (hrest s')

/-- The two machines put out the same. -/
theorem trace_fed (emit : State → Move → List Out)
    (hnext : ∀ token rest, next (encode token ++ rest) = (meaning token, rest))
    (hidle : next [] = (idle, [])) (cues : List (Cue Input Move)) (tokens : List Token) (s : State) :
    trace (fedStep step next) (fedEmit next emit) cues (s, tokens.flatMap encode) =
      trace step emit (movesOf idle cues (tokens.map meaning)) s := by
  induction cues generalizing tokens s with
  | nil => rfl
  | cons cue cues ih =>
    cases cue with
    | ready m => exact trace_fed_cons rfl rfl fun s' => ih tokens s'
    | read use =>
      cases tokens with
      | nil =>
        have hinput : (next ([] : List Sym)).1 = idle := congrArg Prod.fst hidle
        refine trace_fed_cons ?_ ?_ fun s' => ih [] s'
        · rw [List.flatMap_nil, fedStep, hidle]
        · rw [List.flatMap_nil, fedEmit, hinput]
      | cons token tokens =>
        rw [List.flatMap_cons, List.map_cons]
        have hread := hnext token (tokens.flatMap encode)
        refine trace_fed_cons ?_ ?_ fun s' => ih tokens s'
        · rw [fedStep, hread]
        · rw [fedEmit, hread]

end Feed
end Machine
