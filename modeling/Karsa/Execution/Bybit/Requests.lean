import Karsa.Foundations.Text
import Mathlib.Algebra.Group.Nat.Defs
import Mathlib.Logic.Basic

/-!
# Bybit client - The retry loop of private requests

Every private call goes through `BybitClient._execute`, which sends the same
request up to five times and stops at the first reply with return code zero.
Timeouts, refusals and transport errors are all retried.  Whether the exchange
carried out a request is not visible to the client when the reply is lost, so
an attempt records both sides.

Main results:

- Theorem `executeLoop_accepted_eq_zero_iff`: when nothing is carried out.
- Theorem `executeLoop_accepted_le_one_iff`: when a retried request is carried
  out at most once.
- Theorem `mem_executed`: which attempts are carried out.
-/

namespace Karsa
namespace Bybit

variable {α : Type}

/-- What the client sees of one attempt. -/
inductive Reply (α : Type) where
  | ok (result : α)
  | refused (retCode : Int) (retMsg : Text)
  | raised (message : Text)
  | timedOut

/-- A usable reply. -/
def Reply.isOk : Reply α → Bool
  | .ok _ => true
  | .refused _ _ | .raised _ | .timedOut => false

/-- One attempt: did the exchange carry the request out, and what came back.
A usable reply is only sent for a request that was carried out. -/
structure Attempt (α : Type) where
  executed : Bool
  reply : Reply α
  executed_of_ok : reply.isOk = true → executed = true

/-- `BybitClient._MAX_RETRIES`. -/
def maxRetries : Nat := 5

/-- Message of the exception that attempt number `attempt` raises, `none` for a
usable result. -/
def Reply.error (attempt : Nat) : Reply α → Option Text
  | .ok _ => none
  | .refused retCode retMsg =>
      if retCode = 10001 ∨ retCode = 10002 ∨ retCode = 10003 then
        some ("Bybit auth error: ".toList ++ retMsg)
      else
        some ("Bybit API error [".toList ++ (toString retCode).toList ++ "]: ".toList ++ retMsg)
  | .raised message => some message
  | .timedOut =>
      some ("Bybit timeout on attempt ".toList ++ (toString (attempt + 1)).toList)

/-- Is the link still marked as connected after the attempt?  Timeouts and
messages that mention `auth` force a new session. -/
def Reply.keepsLink (attempt : Nat) : Reply α → Bool
  | .timedOut => false
  | reply => !Text.contains (((reply.error attempt).getD []).map Char.toLower) "auth".toList

/-- Seconds slept after the failed attempt number `attempt`. -/
def backoff (attempt : Nat) (message : Text) : Nat :=
  let lower := message.map Char.toLower
  let base := min (2 ^ attempt) 30
  if Text.contains lower "dns".toList || Text.contains lower "name resolution".toList then
    max base 5
  else base

/-- Outcome of a retried request, with the numbers of the attempts that the exchange carried
out. -/
structure ExecuteResult (α : Type) where
  outcome : Except Text α
  connected : Bool
  executed : List Nat
  slept : List Nat

/-- How often the exchange carried the request out. -/
def ExecuteResult.accepted (r : ExecuteResult α) : Nat :=
  r.executed.length

/-- The `for attempt in range(_MAX_RETRIES)` loop from attempt `attempt` on,
with `fuel` attempts left and their answers in order.  The session is recreated
before an attempt when the link is down, so an attempt always finds one. -/
def executeLoop (lastError : Text) :
    (fuel attempt : Nat) → (answers : Nat → Attempt α) → (connected : Bool) → ExecuteResult α
  | 0, _, _, connected =>
      { outcome := .error lastError, connected := connected, executed := [], slept := [] }
  | fuel + 1, attempt, answers, _ =>
      let done := if (answers 0).executed then [attempt] else []
      match (answers 0).reply with
      | .ok result =>
          { outcome := .ok result, connected := true, executed := done, slept := [] }
      | reply =>
          let message := (reply.error attempt).getD []
          let rest := executeLoop message fuel (attempt + 1) (fun n => answers (n + 1))
            (reply.keepsLink attempt)
          { rest with
            executed := done ++ rest.executed
            slept := if fuel = 0 then rest.slept else backoff attempt message :: rest.slept }

/-- `BybitClient._execute`. -/
def execute (answers : Nat → Attempt α) (connected : Bool) : ExecuteResult α :=
  executeLoop "Bybit call failed after retries".toList maxRetries 0 answers connected

/-! ## How often the exchange carries the request out -/

/-- One round of the loop, read off the attempt. -/
theorem executeLoop_succ_executed (lastError : Text) (fuel attempt : Nat)
    (answers : Nat → Attempt α) (connected : Bool) :
    (executeLoop lastError (fuel + 1) attempt answers connected).executed =
      (if (answers 0).executed then [attempt] else []) ++
        if (answers 0).reply.isOk then []
        else (executeLoop (((answers 0).reply.error attempt).getD []) fuel (attempt + 1)
          (fun n => answers (n + 1)) ((answers 0).reply.keepsLink attempt)).executed := by
  cases hreply : (answers 0).reply <;> simp [executeLoop, hreply, Reply.isOk]

/-- How often one round and those behind it carry the request out. -/
theorem executeLoop_succ_accepted (lastError : Text) (fuel attempt : Nat)
    (answers : Nat → Attempt α) (connected : Bool) :
    (executeLoop lastError (fuel + 1) attempt answers connected).accepted =
      (if (answers 0).executed then 1 else 0) +
        if (answers 0).reply.isOk then 0
        else (executeLoop (((answers 0).reply.error attempt).getD []) fuel (attempt + 1)
          (fun n => answers (n + 1)) ((answers 0).reply.keepsLink attempt)).accepted := by
  rw [ExecuteResult.accepted, executeLoop_succ_executed, List.length_append]
  congr 1
  · split_ifs <;> rfl
  · split_ifs <;> rfl

/-- An attempt that is carried out is one of the loop's, and no reply before it is usable. -/
theorem mem_executed {lastError : Text} {fuel attempt k : Nat} {answers : Nat → Attempt α}
    {connected : Bool} :
    k ∈ (executeLoop lastError fuel attempt answers connected).executed ↔
      ∃ i < fuel, k = attempt + i ∧ (answers i).executed = true ∧
        ∀ j < i, (answers j).reply.isOk = false := by
  induction fuel generalizing lastError attempt answers connected with
  | zero => simp [executeLoop]
  | succ fuel ih =>
      have hhead : k ∈ (if (answers 0).executed then [attempt] else []) ↔
          k = attempt ∧ (answers 0).executed = true := by
        split_ifs with hexecuted <;> simp [hexecuted]
      rw [executeLoop_succ_executed, List.mem_append, hhead]
      constructor
      · rintro (⟨hk, hexecuted⟩ | hlater)
        · exact ⟨0, fuel.succ_pos, hk, hexecuted, nofun⟩
        · split_ifs at hlater with hok
          · cases hlater
          · rcases ih.mp hlater with ⟨i, hi, hk, hexecuted, hbefore⟩
            refine ⟨i + 1, Nat.succ_lt_succ hi, by omega, hexecuted, fun j hj => ?_⟩
            cases j with
            | zero => simpa using hok
            | succ j => exact hbefore j (Nat.lt_of_succ_lt_succ hj)
      · rintro ⟨i, hi, hk, hexecuted, hbefore⟩
        cases i with
        | zero => exact .inl ⟨hk, hexecuted⟩
        | succ i =>
            refine .inr ?_
            rw [if_neg (by simp [hbefore 0 i.succ_pos])]
            exact ih.mpr ⟨i, Nat.lt_of_succ_lt_succ hi, by omega, hexecuted,
              fun j hj => hbefore (j + 1) (Nat.succ_lt_succ hj)⟩

/-- The attempts that are carried out come in order. -/
theorem executed_pairwise (lastError : Text) (fuel attempt : Nat) (answers : Nat → Attempt α)
    (connected : Bool) :
    (executeLoop lastError fuel attempt answers connected).executed.Pairwise (· < ·) := by
  induction fuel generalizing lastError attempt answers connected with
  | zero => exact .nil
  | succ fuel ih =>
      have htail : (if (answers 0).reply.isOk then []
          else (executeLoop (((answers 0).reply.error attempt).getD []) fuel (attempt + 1)
            (fun n => answers (n + 1))
            ((answers 0).reply.keepsLink attempt)).executed).Pairwise (· < ·) := by
        split_ifs
        · exact .nil
        · exact ih _ _ _ _
      rw [executeLoop_succ_executed]
      refine List.pairwise_append.mpr ⟨by split_ifs <;> simp, htail, fun k hk later hlater => ?_⟩
      obtain rfl : k = attempt := by
        split_ifs at hk
        · exact List.mem_singleton.mp hk
        · cases hk
      split_ifs at hlater
      · cases hlater
      · rcases mem_executed.mp hlater with ⟨i, -, rfl, -⟩
        omega

/-- A request that was not carried out has no usable reply. -/
theorem Attempt.isOk_eq_false {a : Attempt α} (ha : a.executed = false) :
    a.reply.isOk = false := by
  by_contra hok
  have hexecuted : a.executed = true := a.executed_of_ok (by simpa using hok)
  simp [ha] at hexecuted

/-- Nothing is carried out exactly when no remaining attempt is. -/
theorem executeLoop_accepted_eq_zero_iff (lastError : Text) (fuel attempt : Nat)
    (answers : Nat → Attempt α) (connected : Bool) :
    (executeLoop lastError fuel attempt answers connected).accepted = 0 ↔
      ∀ i < fuel, (answers i).executed = false := by
  induction fuel generalizing lastError attempt answers connected with
  | zero => simp [executeLoop, ExecuteResult.accepted]
  | succ fuel ih =>
      rw [executeLoop_succ_accepted, Nat.forall_lt_succ_left']
      cases hexecuted : (answers 0).executed with
      | true => simp
      | false => simp [Attempt.isOk_eq_false hexecuted, ih]

/-- After a first attempt that was carried out without an answer, a request is carried out only
once exactly when no later attempt is. -/
theorem executeLoop_accepted_le_one_iff_of_unanswered (lastError : Text) (fuel attempt : Nat)
    {answers : Nat → Attempt α} (connected : Bool) (hexecuted : (answers 0).executed = true)
    (hlost : (answers 0).reply.isOk = false) :
    (executeLoop lastError (fuel + 1) attempt answers connected).accepted ≤ 1 ↔
      ∀ k < fuel, (answers (k + 1)).executed = false := by
  have hzero := executeLoop_accepted_eq_zero_iff
    (((answers 0).reply.error attempt).getD []) fuel (attempt + 1)
    (fun n => answers (n + 1)) ((answers 0).reply.keepsLink attempt)
  rw [executeLoop_succ_accepted, ← hzero]
  simp only [hexecuted, hlost, if_true, Bool.false_eq_true, if_false]
  omega

/-- A request is carried out at most once exactly when its first execution is
answered or no later attempt is executed. -/
theorem executeLoop_accepted_le_one_iff (lastError : Text) (fuel attempt : Nat)
    (answers : Nat → Attempt α) (connected : Bool) :
    (executeLoop lastError fuel attempt answers connected).accepted ≤ 1 ↔
      ∀ i k, i < k → k < fuel → (∀ j < i, (answers j).executed = false) →
        (answers i).executed = true → (answers k).executed = true →
          (answers i).reply.isOk = true := by
  induction fuel generalizing lastError attempt answers connected with
  | zero => simp [executeLoop, ExecuteResult.accepted]
  | succ fuel ih =>
      cases hexecuted : (answers 0).executed with
      | true =>
          -- the first execution is this one, so only `i = 0` is left
          have honly : ∀ i, (∀ j < i, (answers j).executed = false) → i = 0 := by
            intro i hfirst
            by_contra hne
            simpa [hexecuted] using hfirst 0 (Nat.pos_of_ne_zero hne)
          cases hok : (answers 0).reply.isOk with
          | true =>
              rw [executeLoop_succ_accepted, hexecuted, hok]
              refine iff_of_true (by simp) ?_
              intro i k _ _ hfirst _ _
              rw [honly i hfirst]
              exact hok
          | false =>
              rw [executeLoop_accepted_le_one_iff_of_unanswered lastError fuel attempt connected
                hexecuted hok]
              constructor
              · intro hnone i k hik hk hfirst _ hlater
                obtain ⟨k, rfl⟩ : ∃ m, k = m + 1 := ⟨k - 1, by omega⟩
                simp [hnone k (by omega)] at hlater
              · intro hcond k hk
                by_contra hlater
                have hfirst := hcond 0 (k + 1) (Nat.succ_pos k) (by omega) (by simp)
                  hexecuted (by simpa using hlater)
                simp [hok] at hfirst
      | false =>
          simp only [executeLoop_succ_accepted, hexecuted, Attempt.isOk_eq_false hexecuted,
            Bool.false_eq_true, if_false, Nat.zero_add, ih]
          constructor
          · intro hcond i k hik hk hfirst hi hlater
            cases i with
            | zero => simp [hexecuted] at hi
            | succ i =>
                obtain ⟨k, rfl⟩ : ∃ m, k = m + 1 := ⟨k - 1, by omega⟩
                exact hcond i k (by omega) (by omega)
                  (fun j hj => hfirst (j + 1) (by omega)) hi hlater
          · intro hcond i k hik hk hfirst hi hlater
            refine hcond (i + 1) (k + 1) (by omega) (by omega) ?_ hi hlater
            intro j hj
            cases j with
            | zero => exact hexecuted
            | succ j => exact hfirst j (by omega)

end Bybit
end Karsa
