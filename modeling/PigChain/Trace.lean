/-!
# Traced computations

A computation notes events as it goes and succeeds or fails; the events noted before a failure stay. Only the
order of the events matters, so they are a list beside the outcome, and the outcome never depends on them.
-/

namespace PigChain

inductive Level where
  | trace
  | debug
  | info
  | warn
  | error
  deriving DecidableEq, Repr

namespace Level

def name : Level → String
  | .trace => "TRACE"
  | .debug => "DEBUG"
  | .info => "INFO"
  | .warn => "WARN"
  | .error => "ERROR"

/-- How much is let through: the more, the finer. -/
def rank : Level → Nat
  | .error => 1
  | .warn => 2
  | .info => 3
  | .debug => 4
  | .trace => 5

end Level

/-- What a field of an event holds. -/
inductive EventValue where
  /-- Text, put between quotes in a log line. -/
  | text (s : String)
  /-- Something already written out. -/
  | shown (s : String)
  | number (n : Nat)
  deriving DecidableEq, Repr

/-- The value by itself. -/
def EventValue.plain : EventValue → String
  | .text s => s
  | .shown s => s
  | .number n => toString n

/-- Something worth noting that happened. -/
structure Event where
  level : Level
  /-- The part of the program that notes it. -/
  origin : String
  message : String
  fields : List (String × EventValue) := []
  deriving DecidableEq, Repr

/-- A computation with its events and its outcome. -/
structure Traced (ε α : Type) where
  events : List Event
  outcome : Except ε α

namespace Traced

variable {ε α β : Type}

instance : Monad (Traced ε) where
  pure a := ⟨[], .ok a⟩
  bind x f :=
    match x.outcome with
    | .error e => ⟨x.events, .error e⟩
    | .ok a =>
      let y := f a
      ⟨x.events ++ y.events, y.outcome⟩

instance : MonadExceptOf ε (Traced ε) where
  throw e := ⟨[], .error e⟩
  tryCatch x handle :=
    match x.outcome with
    | .error e =>
      let y := handle e
      ⟨x.events ++ y.events, y.outcome⟩
    | .ok a => ⟨x.events, .ok a⟩

/-- Notes an event. -/
def note (e : Event) : Traced ε Unit := ⟨[e], .ok ()⟩

/-- A computation that notes nothing. -/
def silent (x : Except ε α) : Traced ε α := ⟨[], x⟩

/-- The computation with another kind of error. -/
def mapError (f : ε → ε') (x : Traced ε α) : Traced ε' α := ⟨x.events, x.outcome.mapError f⟩

@[simp] theorem outcome_pure (a : α) : (pure a : Traced ε α).outcome = .ok a := rfl

@[simp] theorem outcome_bind (x : Traced ε α) (f : α → Traced ε β) :
    (x >>= f).outcome = x.outcome.bind fun a => (f a).outcome := by
  cases h : x.outcome <;> simp [bind, h, Except.bind]

@[simp] theorem outcome_note (e : Event) : (note e : Traced ε Unit).outcome = .ok () := rfl

@[simp] theorem outcome_silent (x : Except ε α) : (silent x).outcome = x := rfl

@[simp] theorem outcome_throw (e : ε) : (throw e : Traced ε α).outcome = .error e := rfl

end Traced

end PigChain
