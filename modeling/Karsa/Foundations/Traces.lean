import Mathlib.Data.List.Basic

/-!
# Foundations - Properties of every event of a log

A log that only grows is audited event by event, each against the part of the log
before it.  Appending keeps what was established about the older events, so an
audit is carried through a program one appended event at a time.

Main results:

- Theorem `Throughout.append`: an audited log followed by audited events.
- Theorem `Throughout.snoc`: the same for one event.
- Theorem `Appended.trans`: what is appended piece by piece is appended.
-/

namespace Karsa

universe u

variable {ε : Type u}

/-- Every event of the log satisfies the property relative to the events before it. -/
def Throughout (property : List ε → ε → Prop) (log : List ε) : Prop :=
  ∀ before e after, log = before ++ e :: after → property before e

namespace Throughout

variable {property : List ε → ε → Prop} {log new : List ε}

theorem nil : Throughout property [] := by
  intro before e after h
  simp at h

/-- An audited log followed by events that are audited behind it. -/
theorem append (hlog : Throughout property log)
    (hnew : ∀ before e after, new = before ++ e :: after → property (log ++ before) e) :
    Throughout property (log ++ new) := by
  intro before e after h
  rcases List.append_eq_append_iff.mp h with ⟨mid, hbefore, hmid⟩ | ⟨mid, hlog', hmid⟩
  · rw [hbefore]
    exact hnew mid e after hmid
  · cases mid with
    | nil =>
        rw [List.append_nil] at hlog'
        have hfirst : new = [] ++ e :: after := hmid.symm
        simpa [hlog'] using hnew [] e after hfirst
    | cons first rest =>
        rw [List.cons_append, List.cons.injEq] at hmid
        rw [← hmid.1] at hlog'
        exact hlog before e rest hlog'

/-- An audited log followed by one event. -/
theorem snoc (hlog : Throughout property log) {e : ε} (he : property log e) :
    Throughout property (log ++ [e]) := by
  refine hlog.append ?_
  intro before e' after h
  rcases List.singleton_eq_append_iff.mp h with ⟨rfl, hsingle⟩ | ⟨-, hnil⟩
  · rcases List.cons.inj hsingle with ⟨rfl, -⟩
    simpa using he
  · simp at hnil

end Throughout

/-- The second log is the first one followed by events with the property. -/
def Appended (property : ε → Prop) (log log' : List ε) : Prop :=
  ∃ new, log' = log ++ new ∧ ∀ e ∈ new, property e

namespace Appended

variable {property property' : ε → Prop} {log log' log'' : List ε}

theorem refl (property : ε → Prop) (log : List ε) : Appended property log log :=
  ⟨[], by rw [List.append_nil], by simp⟩

theorem trans (h : Appended property log log') (h' : Appended property log' log'') :
    Appended property log log'' := by
  rcases h with ⟨new, rfl, hnew⟩
  rcases h' with ⟨new', rfl, hnew'⟩
  refine ⟨new ++ new', by rw [List.append_assoc], ?_⟩
  intro e he
  rcases List.mem_append.mp he with hfirst | hsecond
  · exact hnew e hfirst
  · exact hnew' e hsecond

theorem mono (h : Appended property log log') (hweaken : ∀ e, property e → property' e) :
    Appended property' log log' := by
  rcases h with ⟨new, hlog, hnew⟩
  exact ⟨new, hlog, fun e he => hweaken e (hnew e he)⟩

/-- One event is appended. -/
theorem single {e : ε} (he : property e) : Appended property log (log ++ [e]) :=
  ⟨[e], rfl, by simpa using he⟩

theorem subset (h : Appended property log log') : log ⊆ log' := by
  rcases h with ⟨new, rfl, -⟩
  exact List.subset_append_left log new

end Appended
end Karsa
