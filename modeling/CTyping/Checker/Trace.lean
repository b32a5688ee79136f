import CTyping.Checker.Problem

/-!
# The trace of a check

Checking fills in the types of a tree and, on the way, notes what happens: it enters a function, it
finds a problem, it makes a conversion. A `CTyping.Traced` value is a result together with these
events in the order in which they happened. Since events are only ever added, the diagnostics of a
check depend on nothing but the tree that is checked.
-/

namespace CTyping

/-- How much a line of the log matters, the least first. -/
inductive LogLevel where
  | trace
  | debug
  | info
deriving DecidableEq, Repr

/-- The word at the start of a line of the log. -/
def LogLevel.text : LogLevel → String
  | .trace => "TRACE"
  | .debug => "DEBUG"
  | .info => "INFO"

/-- A line of the log. -/
structure LogLine where
  level : LogLevel
  message : String
deriving DecidableEq

/-- A line of the log as it is written. -/
def LogLine.text (l : LogLine) : String := l.level.text ++ " " ++ l.message

/-- What can happen during a check. -/
inductive Event where
  /-- The checker enters a function. -/
  | entered (function : String)
  /-- A problem is found at a place. -/
  | found (problem : Problem) (span : Span)
  /-- An expression of one type is converted to another. -/
  | converted (source target : Ty)
deriving DecidableEq

namespace Event

/-- The diagnostic that an event gives rise to. -/
def diagnostic? : Event → Option Diagnostic
  | .found problem span => some (problem.diagnostic span)
  | _ => none

/-- An event as a line of the log. -/
def logLine : Event → LogLine
  | .entered f => ⟨.debug, "checking function " ++ f⟩
  | .found problem span => ⟨.trace, "recorded " ++ (problem.diagnostic span).text⟩
  | .converted s t => ⟨.debug, "inserting cast from " ++ s.text ++ " to " ++ t.text⟩

end Event

/-- A result with the events on the way to it. -/
structure Traced (α : Type) where
  value : α
  events : List Event

namespace Traced

variable {α β : Type}

instance : Monad Traced where
  pure a := ⟨a, []⟩
  bind x f := ⟨(f x.value).value, x.events ++ (f x.value).events⟩

@[simp] theorem value_pure (a : α) : (pure a : Traced α).value = a := rfl

@[simp] theorem events_pure (a : α) : (pure a : Traced α).events = [] := rfl

@[simp] theorem value_bind (x : Traced α) (f : α → Traced β) :
    (x >>= f).value = (f x.value).value := rfl

@[simp] theorem events_bind (x : Traced α) (f : α → Traced β) :
    (x >>= f).events = x.events ++ (f x.value).events := rfl

instance : LawfulMonad Traced :=
  LawfulMonad.mk' Traced (fun x => by cases x; simp [Functor.map]) (fun a f => by simp [bind, pure])
    (fun x f g => by simp [bind, List.append_assoc])

/-- Notes one event. -/
def note (e : Event) : Traced Unit := ⟨(), [e]⟩

/-- Notes a problem. -/
def report (span : Span) (problem : Problem) : Traced Unit := note (.found problem span)

/-- Notes a problem, unless all is well. -/
def reportUnless (well : Bool) (span : Span) (problem : Problem) : Traced Unit :=
  if well then pure () else report span problem

/-- The diagnostics among the events. -/
def diagnostics (x : Traced α) : List Diagnostic := x.events.filterMap Event.diagnostic?

@[simp] theorem diagnostics_pure (a : α) : (pure a : Traced α).diagnostics = [] := rfl

@[simp] theorem diagnostics_bind (x : Traced α) (f : α → Traced β) :
    (x >>= f).diagnostics = x.diagnostics ++ (f x.value).diagnostics :=
  List.filterMap_append

end Traced

end CTyping
