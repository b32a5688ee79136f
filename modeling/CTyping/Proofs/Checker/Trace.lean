import CTyping.Checker.Trace

/-!
# What a trace says about a check

Two questions are asked of the events of a check. Was anything wrong? A trace without errors is
*clean* (`CTyping.Traced.clean`); a doubtful conversion does not spoil it. And what would a second
check, of the tree that the first one leaves, meet again? Conversions that have been made are not
made twice, so their events do not *last* (`CTyping.Event.lasting`), and neither does the doubt
about a conversion made for an assignment; everything else does. `CTyping.Traced.settled` is a
result with the events that last.

Both go through sequences and lists part by part, which is what the lemmas here are about.
-/

namespace CTyping

/-! ### Errors among the events -/

/-- Whether an event is the finding of an error. -/
def Event.isError : Event → Bool
  | .found problem _ => problem.severity == .error
  | _ => false

namespace Traced

variable {α β : Type}

attribute [ext] Traced

/-- Whether nothing wrong was found; doubtful conversions do not count. -/
def clean (x : Traced α) : Bool := x.events.all fun e => !e.isError

@[simp] theorem clean_pure (a : α) : (pure a : Traced α).clean = true := rfl

@[simp] theorem clean_bind (x : Traced α) (f : α → Traced β) :
    (x >>= f).clean = (x.clean && (f x.value).clean) :=
  List.all_append

@[simp] theorem value_map (f : α → β) (x : Traced α) : (f <$> x).value = f x.value := rfl

@[simp] theorem clean_map (f : α → β) (x : Traced α) : (f <$> x).clean = x.clean := by
  simp only [map_eq_pure_bind, clean_bind, clean_pure, Bool.and_true]

/-- What follows a check depends only on what the check gives. -/
theorem bind_congr_value {x : Traced α} {f g : α → Traced β} (h : f x.value = g x.value) :
    x >>= f = x >>= g := by
  change (⟨(f x.value).value, x.events ++ (f x.value).events⟩ : Traced β) = _
  rw [h]
  rfl

@[simp] theorem clean_note (e : Event) : (note e).clean = !e.isError := by
  simp [clean, note]

@[simp] theorem clean_report (s : Span) (p : Problem) :
    (report s p).clean = (p.severity == .warning) := by
  cases h : p.severity <;> simp [report, Event.isError, h]

@[simp] theorem clean_reportUnless (b : Bool) (s : Span) (p : Problem) :
    (reportUnless b s p).clean = (b || p.severity == .warning) := by
  cases b <;> simp [reportUnless]

/-- The finding of a problem is an error if the problem is. -/
theorem isError_diagnostic (p : Problem) (s : Span) :
    (p.diagnostic s).isError = (p.severity == .error) := rfl

/-- A check is clean when no diagnostic of it is an error. -/
theorem clean_iff {x : Traced α} : x.clean = true ↔ ∀ d ∈ x.diagnostics, d.isError = false := by
  simp only [clean, diagnostics, List.all_eq_true, List.mem_filterMap]
  constructor
  · rintro h d ⟨e, he, hd⟩
    cases e with
    | found p s =>
      cases hd
      simpa [Event.isError, isError_diagnostic] using h _ he
    | entered f => cases hd
    | converted s t => cases hd
  · intro h e he
    cases e with
    | found p s => simpa [Event.isError, isError_diagnostic] using h _ ⟨_, he, rfl⟩
    | entered f => rfl
    | converted s t => rfl

end Traced

/-! ### Events that a second check meets again -/

/-- Whether an event happens again when the tree that a check leaves is checked. -/
def Event.lasting : Event → Bool
  | .entered _ => true
  | .found (.lossyConversion _ _) _ => false
  | .found _ _ => true
  | .converted _ _ => false

namespace Traced

variable {α β : Type}

/-- A result with the events that happen again. -/
def settled (x : Traced α) : Traced α := ⟨x.value, x.events.filter Event.lasting⟩

@[simp] theorem value_settled (x : Traced α) : x.settled.value = x.value := rfl

@[simp] theorem settled_pure (a : α) : (pure a : Traced α).settled = pure a := rfl

/-- The events of two steps that last are those of each that do. -/
theorem settled_bind (x : Traced α) (f : α → Traced β) :
    (x >>= f).settled = x.settled >>= fun a => (f a).settled := by
  ext1
  · rfl
  · exact List.filter_append ..

@[simp] theorem settled_map (f : α → β) (x : Traced α) : (f <$> x).settled = f <$> x.settled := by
  simp only [map_eq_pure_bind, settled_bind, settled_pure]

@[simp] theorem settled_note (e : Event) :
    (note e).settled = if e.lasting then note e else pure () := by
  cases h : e.lasting with
  | true => simp [settled, note, h]
  | false => exact Traced.ext rfl (List.filter_cons_of_neg (by simp [h]))

/-- A problem other than a doubtful conversion in an assignment is found again. -/
theorem settled_report {s : Span} {p : Problem} (h : ∀ a b, p ≠ .lossyConversion a b) :
    (report s p).settled = report s p := by
  have hl : (Event.found p s).lasting = true := by
    cases p with
    | lossyConversion a b => exact absurd rfl (h a b)
    | _ => rfl
  rw [report, settled_note, if_pos hl]

/-- A report lasts unless it is the warning about a conversion. -/
theorem settled_reportUnless {b : Bool} {s : Span} {p : Problem}
    (h : ∀ a b, p ≠ .lossyConversion a b) :
    (reportUnless b s p).settled = reportUnless b s p := by
  cases b with
  | true => rfl
  | false => exact settled_report h

/-! ### Lists -/

@[simp] theorem value_mapM (f : α → Traced β) (as : List α) :
    (as.mapM f).value = as.map fun a => (f a).value := by
  induction as with
  | nil => simp
  | cons a as ih => simp [ih]

@[simp] theorem clean_mapM (f : α → Traced β) (as : List α) :
    (as.mapM f).clean = as.all fun a => (f a).clean := by
  induction as with
  | nil => simp
  | cons a as ih => simp [ih]

/-- **A list is settled member by member.** If a second check of what the first one makes of a
member gives what is settled of the first, then so it is for a list. -/
theorem mapM_again {f : α → Traced α} {as : List α}
    (h : ∀ a ∈ as, f (f a).value = (f a).settled) :
    (as.map fun a => (f a).value).mapM f = (as.mapM f).settled := by
  induction as with
  | nil => simp
  | cons a as ih =>
    have ha : f (f a).value = (f a).settled := h a List.mem_cons_self
    have has := ih fun x hx => h x (List.mem_cons_of_mem a hx)
    simp [ha, has, settled_bind]

end Traced

end CTyping
