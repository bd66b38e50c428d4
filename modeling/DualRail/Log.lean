/-
  The log of a run.

  Every step that is worth a remark leaves an event in the log; steps that belong
  together are wrapped in a span.  `Traced` is a computation that may fail and
  that keeps what it logged in either case, so a log is an ordinary value and
  can be compared, filtered and printed after the run.
-/
set_option autoImplicit false

namespace DualRail

/-- How urgent an event is, the most urgent level first. -/
inductive Level
  | error
  | warn
  | info
  | debug
  | trace
deriving DecidableEq, Repr, Inhabited

namespace Level

/-- Every level, the most urgent first. -/
def all : List Level := [error, warn, info, debug, trace]

/-- The name of a level in a log. -/
def label : Level → String
  | error => "ERROR"
  | warn => "WARN"
  | info => "INFO"
  | debug => "DEBUG"
  | trace => "TRACE"

/-- The name of a level in a configuration. -/
def name : Level → String
  | error => "error"
  | warn => "warn"
  | info => "info"
  | debug => "debug"
  | trace => "trace"

/-- The level of a configured name. -/
def ofName? (text : String) : Option Level := all.find? (·.name == text)

/-- The number of more urgent levels. -/
def rank : Level → Nat
  | error => 0
  | warn => 1
  | info => 2
  | debug => 3
  | trace => 4

/-- Whether an event of this level passes a filter set to `limit`. -/
def passes (level limit : Level) : Bool := level.rank ≤ limit.rank

theorem ofName?_name (l : Level) : ofName? l.name = some l := by cases l <;> decide

end Level

/-- A named value of an event or a span.  A quoted value is shown between quotes
on a console. -/
structure Field where
  name : String
  value : String
  quoted : Bool
deriving DecidableEq, Repr, Inhabited

namespace Field

/-- A value that is shown as it is. -/
def plain (name value : String) : Field := ⟨name, value, false⟩

/-- A number. -/
def number (name : String) (n : Nat) : Field := ⟨name, n.repr, false⟩

/-- A text that is shown between quotes. -/
def text (name value : String) : Field := ⟨name, value, true⟩

end Field

/-- Something that happened. -/
structure Event where
  level : Level
  message : String
  fields : List Field
deriving DecidableEq, Repr, Inhabited

/-- The name of a stretch of a run. -/
structure Span where
  name : String
  fields : List Field
deriving DecidableEq, Repr, Inhabited

/-- An entry of a log: an event, or a span with everything logged inside it. -/
inductive Entry
  | event (e : Event)
  | span (s : Span) (inside : List Entry)
deriving Repr, Inhabited

/-- A log, the earliest entry first. -/
abbrev Log := List Entry

namespace Log

/-- Spans are worth showing from this level on. -/
def spanLevel : Level := .info

mutual

/-- The events of an entry that pass the filter, each with the spans around it,
the outermost first. -/
def Entry.eventsWithin (limit : Level) (around : List Span) : Entry → List (List Span × Event)
  | .event e => if e.level.passes limit then [(around, e)] else []
  | .span s inside =>
      let around := if spanLevel.passes limit then around ++ [s] else around
      eventsWithin limit around inside

/-- The events of a log that pass the filter, each with the spans around it. -/
def eventsWithin (limit : Level) (around : List Span) : Log → List (List Span × Event)
  | [] => []
  | e :: rest => Entry.eventsWithin limit around e ++ eventsWithin limit around rest

end

mutual

/-- An entry that passes the filter, with the start of a span as an entry of its
own. -/
def Entry.flatten (limit : Level) : Entry → List (Span ⊕ Event)
  | .event e => if e.level.passes limit then [.inr e] else []
  | .span s inside =>
      (if spanLevel.passes limit then [.inl s] else []) ++ flatten limit inside

/-- The entries of a log that pass the filter, with the start of each span as an
entry of its own. -/
def flatten (limit : Level) : Log → List (Span ⊕ Event)
  | [] => []
  | e :: rest => Entry.flatten limit e ++ flatten limit rest

end

end Log

/-- A computation that may fail with an `ε` and that logs what it does. -/
structure Traced (ε α : Type) where
  log : Log
  outcome : Except ε α

namespace Traced

variable {ε α β : Type}

/-- A result without a remark. -/
def ofExcept (outcome : Except ε α) : Traced ε α := ⟨[], outcome⟩

/-- Fail. -/
def fail (e : ε) : Traced ε α := ofExcept (.error e)

/-- Go on with the result, if there is one; the logs follow each other. -/
def andThen (t : Traced ε α) (next : α → Traced ε β) : Traced ε β :=
  match t.outcome with
  | .error e => ⟨t.log, .error e⟩
  | .ok a =>
      let following := next a
      ⟨t.log ++ following.log, following.outcome⟩

instance : Monad (Traced ε) where
  pure a := ofExcept (.ok a)
  bind := andThen

/-- Log an event. -/
def emit (level : Level) (message : String) (fields : List Field) : Traced ε Unit :=
  ⟨[.event ⟨level, message, fields⟩], .ok ()⟩

/-- Wrap everything that is logged in a span. -/
def within (s : Span) (t : Traced ε α) : Traced ε α := ⟨[.span s t.log], t.outcome⟩

/-- Go on after an error. -/
def recover {ε' : Type} (t : Traced ε α) (next : ε → Traced ε' α) : Traced ε' α :=
  match t.outcome with
  | .ok a => ⟨t.log, .ok a⟩
  | .error e =>
      let following := next e
      ⟨t.log ++ following.log, following.outcome⟩

/-- Turn an error into another one. -/
def mapError {ε' : Type} (f : ε → ε') (t : Traced ε α) : Traced ε' α :=
  ⟨t.log, t.outcome.mapError f⟩

/-! ## What each step does to the result and to the log -/

@[simp] theorem outcome_pure (a : α) : (pure a : Traced ε α).outcome = .ok a := rfl

@[simp] theorem log_pure (a : α) : (pure a : Traced ε α).log = [] := rfl

@[simp] theorem outcome_bind (t : Traced ε α) (next : α → Traced ε β) :
    (t >>= next).outcome = t.outcome.bind fun a => (next a).outcome := by
  change (andThen t next).outcome = _
  unfold andThen
  cases h : t.outcome with
  | error e => rfl
  | ok a => rfl

@[simp] theorem outcome_ofExcept (r : Except ε α) : (ofExcept r).outcome = r := rfl

@[simp] theorem log_ofExcept (r : Except ε α) : (ofExcept r).log = [] := rfl

@[simp] theorem outcome_fail (e : ε) : (fail e : Traced ε α).outcome = .error e := rfl

@[simp] theorem outcome_emit (level : Level) (message : String) (fields : List Field) :
    (emit level message fields : Traced ε Unit).outcome = .ok () := rfl

@[simp] theorem outcome_within (s : Span) (t : Traced ε α) : (t.within s).outcome = t.outcome := rfl

@[simp] theorem outcome_mapError {ε' : Type} (f : ε → ε') (t : Traced ε α) :
    (t.mapError f).outcome = t.outcome.mapError f := rfl

theorem outcome_recover {ε' : Type} (t : Traced ε α) (next : ε → Traced ε' α) :
    (t.recover next).outcome =
      match t.outcome with
      | .ok a => .ok a
      | .error e => (next e).outcome := by
  unfold recover
  cases t.outcome with
  | ok a => rfl
  | error e => rfl

end Traced

end DualRail
