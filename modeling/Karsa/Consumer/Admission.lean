import Karsa.Consumer.Tracking

/-!
# Live loop - Which signals reach the executor

Each gate of `_on_signal_live` is a test of what the handler reads.  A signal reaches
`executor.execute` when it passes all of them, and nothing else stops it: neither a
score that was lowered on the way nor a halt that another component has written.

Main results:

- Theorem `reached_iff_admitted`: the signals that reach the executor.
-/

namespace Karsa
namespace Live

open Bybit Router

/-! ## The tests -/

/-- The session is active. -/
def asmActive (a : SignalAnswers) : Bool :=
  match a.asmState with
  | .error _ => false
  | .ok raw => decide (Text.strip (raw.getD []) = "1".toList)

/-- No readable block entry. -/
def unblocked (a : SignalAnswers) : Bool :=
  match a.blocklist with
  | .error _ => true
  | .ok reason => decide (reason.getD [] = [])

/-- The configuration does not drop the signal. -/
def sized (symbol : Text) (signal : TradeSignal) (a : SignalAnswers) : Bool :=
  match a.config with
  | .failed | .absent | .malformed => true
  | .decoded config => !config.drops signal (minOrderQty symbol a)

/-- The store is readable and has no position of the symbol. -/
def unheld (symbol : Text) (a : SignalAnswers) (store : PositionStore) : Bool :=
  a.positionsReadable && !store.hasPosition symbol

/-- A slot is free. -/
def slotFree (signal : TradeSignal) (a : SignalAnswers) (store : PositionStore) : Bool :=
  let limits := slotLimits a
  if isHyper signal.regime.value then
    decide (((store.listAll.countP fun p => isHyper (p.regime.getD [])) : ℤ) < limits.2)
  else decide ((store.listAll.length : ℤ) < limits.1)

/-- No block for consecutive losses. -/
def lossesAllow (a : SignalAnswers) : Bool :=
  match a.consecutiveLosses with
  | .error _ => false
  | .ok blocked => !blocked

/-- The prefilter lets the signal pass. -/
def mlAllows (a : SignalAnswers) : Bool :=
  match a.mlProbability with
  | .error _ => false
  | .ok probability => decide (55 / 100 ≤ probability)

/-- The score behind the analyst, `none` where the analyst ends the handler. -/
def analystScore (signal : TradeSignal) (a : SignalAnswers) (score : ℚ) : Option ℚ :=
  match a.analyst with
  | none => some score
  | some (.error _) | some (.ok none) => none
  | some (.ok (some verdict)) => some (adjustedScore signal verdict score)

/-- The risk manager approves a signal of this score. -/
def riskApproves (a : SignalAnswers) (score : ℚ) : Bool :=
  match a.riskManager with
  | none => false
  | some check => match check score with
      | .error _ => false
      | .ok approved => approved

/-- There is room for a stop order, as far as the orders could be read. -/
def stopRoom (a : SignalAnswers) : Bool :=
  match a.openOrders with
  | .error _ => true
  | .ok orders => decide (orders.countP isStopOrder < 9)

/-- The signal passes every test, and there is an executor. -/
structure Admitted (symbol : Text) (signal : TradeSignal) (a : SignalAnswers)
    (store : PositionStore) : Prop where
  asm : asmActive a = true
  blocklist : unblocked a = true
  sizing : sized symbol signal a = true
  duplicate : unheld symbol a store = true
  slot : slotFree signal a store = true
  losses : lossesAllow a = true
  prefilter : mlAllows a = true
  risk : (analystScore signal a signal.score).any (riskApproves a) = true
  stops : stopRoom a = true
  executor : a.executor.isSome = true

/-! ## One gate after the other -/

section Gates

variable (symbol : Text) (signal : TradeSignal) (a : SignalAnswers) (s : SignalState)

theorem asmGate_next? : (asmGate a s).next? = if asmActive a then some s else none := by
  unfold asmGate asmActive
  cases a.asmState with
  | error message => rfl
  | ok raw =>
      dsimp only
      split_ifs with hactive hdecide hdecide <;> simp_all

theorem blocklistGate_next? :
    (blocklistGate a s).next? = if unblocked a then some s else none := by
  unfold blocklistGate unblocked
  cases a.blocklist with
  | error message => rfl
  | ok reason =>
      dsimp only
      split_ifs with hempty hdecide hdecide <;> simp_all

theorem sizingGate_next? :
    (sizingGate symbol signal a s).next? =
      if sized symbol signal a then
        some { s with decimalBound := s.decimalBound || a.config.present }
      else none := by
  unfold sizingGate sized
  cases a.config with
  | failed => simp [ConfigRead.present]
  | absent => simp [ConfigRead.present]
  | malformed => simp [ConfigRead.present]
  | decoded config =>
      dsimp only
      by_cases hdrops : config.drops signal (minOrderQty symbol a) = true
      · rw [if_pos hdrops]
        simp [hdrops]
      · rw [if_neg hdrops]
        simp [hdrops, ConfigRead.present]

theorem duplicateGate_next? :
    (duplicateGate symbol a s).next? = if unheld symbol a s.store then some s else none := by
  unfold duplicateGate unheld
  cases a.positionsReadable <;> cases s.store.hasPosition symbol <;> rfl

theorem slotGate_next? :
    (slotGate signal a s).next? = if slotFree signal a s.store then some s else none := by
  unfold slotGate slotFree
  dsimp only
  by_cases hhyper : isHyper signal.regime.value = true
  · rw [if_pos hhyper, if_pos hhyper]
    split_ifs with hfull hfree hfree
    · simp only [decide_eq_true_eq] at hfree
      omega
    · rfl
    · rfl
    · simp only [decide_eq_true_eq] at hfree
      omega
  · rw [if_neg hhyper, if_neg hhyper]
    split_ifs with hfull hfree hfree
    · simp only [decide_eq_true_eq] at hfree
      omega
    · rfl
    · rfl
    · simp only [decide_eq_true_eq] at hfree
      omega

theorem lossGate_next? : (lossGate a s).next? = if lossesAllow a then some s else none := by
  unfold lossGate lossesAllow
  cases a.consecutiveLosses with
  | error message => rfl
  | ok blocked => cases blocked <;> rfl

theorem mlGate_next? : (mlGate a s).next? = if mlAllows a then some s else none := by
  unfold mlGate mlAllows
  cases a.mlProbability with
  | error message => rfl
  | ok probability =>
      dsimp only
      by_cases hlow : probability < 55 / 100
      · rw [if_pos hlow, if_neg (by simpa using hlow)]
        rfl
      · rw [if_neg hlow, if_pos (by simpa using hlow)]
        rfl

theorem analystGate_next? :
    (analystGate signal a s).next? =
      (analystScore signal a s.score).map fun score => { s with score := score } := by
  unfold analystGate analystScore
  rcases a.analyst with _ | _ | _ | verdict <;> rfl

theorem riskGate_next? :
    (riskGate a s).next? = if riskApproves a s.score then some s else none := by
  unfold riskGate riskApproves
  cases a.riskManager with
  | none => rfl
  | some check =>
      cases hanswer : check s.score with
      | error message => simp [hanswer]
      | ok approved => cases approved <;> simp [hanswer]

theorem stopRoomGate_isSome (hexecutor : a.executor.isSome = true) :
    (stopRoomGate symbol a s).next?.isSome = stopRoom a := by
  unfold stopRoomGate stopRoom
  rw [if_pos hexecutor]
  cases a.openOrders with
  | error message => rfl
  | ok orders =>
      dsimp only
      by_cases hfull : 9 ≤ orders.countP isStopOrder
      · rw [if_pos hfull]
        simpa using hfull
      · rw [if_neg hfull]
        simpa using hfull

end Gates

/-- A tested value goes on to the next gate. -/
theorem isSome_bind_ite {α : Type*} (c : Bool) (x : α) (f : α → Option α) :
    ((if c then some x else none).bind f).isSome = (c && (f x).isSome) := by
  cases c <;> rfl

/-! ## The executor is reached -/

/-- The entry of the signal was handed to the executor. -/
def Reached (symbol : Text) (signal : TradeSignal) (a : SignalAnswers) (s : SignalState) :
    Prop :=
  .enter (entryRequest symbol signal) (maxLossUsd signal) a.execution ∈ s.calls

instance (symbol : Text) (signal : TradeSignal) (a : SignalAnswers) (s : SignalState) :
    Decidable (Reached symbol signal a s) :=
  inferInstanceAs (Decidable (_ ∈ s.calls))

section Reaching

variable {symbol : Text} {signal : TradeSignal} {a : SignalAnswers} {store : PositionStore}

/-- The gates let a signal through to an executor exactly when it passes the tests. -/
theorem gates_isSome_iff (hexecutor : a.executor.isSome = true) :
    (gates symbol signal a (.start signal store)).next?.isSome = true ↔
      Admitted symbol signal a store := by
  have hrest : ∀ s : SignalState, s.store = store → s.score = signal.score →
      ((Flow.blocks (laterGates symbol signal a) s).next?.isSome =
        (slotFree signal a store && (lossesAllow a && (mlAllows a &&
          ((analystScore signal a signal.score).any (riskApproves a) && stopRoom a))))) := by
    intro s hstore hscore
    simp only [laterGates, Flow.blocks_cons, Flow.andThen_blocks_nil, Flow.next?_andThen,
      slotGate_next?, lossGate_next?, mlGate_next?, analystGate_next?, riskGate_next?,
      isSome_bind_ite, hstore, hscore]
    cases analystScore signal a signal.score with
    | none => simp
    | some score =>
        simp [isSome_bind_ite, stopRoomGate_isSome _ _ _ hexecutor]
  unfold gates
  simp only [Flow.blocks_cons, Flow.andThen_blocks_nil, Flow.next?_andThen, asmGate_next?,
    blocklistGate_next?, sizingGate_next?, duplicateGate_next?, isSome_bind_ite]
  rw [hrest _ rfl rfl]
  simp only [Bool.and_eq_true]
  constructor
  · rintro ⟨hasm, hblock, hsize, hfree, hslot, hloss, hml, hrisk, hstops⟩
    exact ⟨hasm, hblock, hsize, hfree, hslot, hloss, hml, hrisk, hstops, hexecutor⟩
  · rintro ⟨hasm, hblock, hsize, hfree, hslot, hloss, hml, hrisk, hstops, -⟩
    exact ⟨hasm, hblock, hsize, hfree, hslot, hloss, hml, hrisk, hstops⟩

/-- Whatever happens to the order, its entry stays among the calls. -/
theorem enter_reached {s : SignalState} (hexecutor : a.executor.isSome = true) :
    Reached symbol signal a (enter symbol signal a s).state := by
  have hsent : Reached symbol signal a (s.call
      (.enter (entryRequest symbol signal) (maxLossUsd signal) a.execution)) := by
    simp [Reached, SignalState.call]
  unfold enter
  rw [if_pos hexecutor]
  dsimp only
  split
  · exact hsent
  · exact hsent
  · unfold Reached
    rw [trackFill_calls]
    exact hsent

/-- A signal reaches the executor exactly when it passes every test. -/
theorem reached_iff_admitted :
    Reached symbol signal a (onSignalLive symbol signal a store).state ↔
      Admitted symbol signal a store := by
  have hgates := gates_ends symbol signal a store
  by_cases hexecutor : a.executor.isSome = true
  · rw [← gates_isSome_iff hexecutor]
    unfold onSignalLive
    cases hflow : gates symbol signal a (.start signal store) with
    | next s =>
        rw [Flow.next_andThen]
        simp [enter_reached hexecutor]
    | ret s =>
        rw [hflow] at hgates
        simp only [Flow.ret_andThen, Flow.state_ret, Flow.next?_ret, Option.isSome_none,
          Bool.false_eq_true, iff_false]
        exact fun hreached => hgates _ hreached
    | raise s =>
        rw [hflow] at hgates
        simp only [Flow.raise_andThen, Flow.state_raise, Flow.next?_raise, Option.isSome_none,
          Bool.false_eq_true, iff_false]
        exact fun hreached => hgates _ hreached
  · constructor
    · intro hreached
      unfold onSignalLive at hreached
      cases hflow : gates symbol signal a (.start signal store) with
      | next s =>
          rw [hflow] at hgates hreached
          rw [Flow.next_andThen] at hreached
          unfold enter at hreached
          rw [if_neg hexecutor] at hreached
          exact (hgates.1.onlyReads _ hreached).elim
      | ret s =>
          rw [hflow] at hgates hreached
          exact (hgates _ hreached).elim
      | raise s =>
          rw [hflow] at hgates hreached
          exact (hgates _ hreached).elim
    · intro h
      exact (hexecutor h.executor).elim

end Reaching

end Live
end Karsa
