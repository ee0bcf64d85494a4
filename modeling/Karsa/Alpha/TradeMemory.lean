import Karsa.Consumer.DecisionEngine
import Karsa.Foundations.JsonText
import Karsa.Foundations.SortedSets

/-!
# Trade memory - Recent trades and loss streaks

`TradeMemory.store` adds the JSON text of a closed trade to a sorted set of its symbol, with the
time as its score, and keeps the twenty highest scores.  `get_recent` reads the highest scores
and decodes them; `DecisionEngine.check_consecutive_losses` counts the losses at the front.

Trades of equal text are one member of the set.  How `repr` writes a float and how deep JSON may
be nested are parameters.

Main results:

- Theorem `getRecent_stored`: the trades read back are the last different ones.
- Theorem `rejects_iff`: which histories are rejected.
- Theorem `checkConsecutiveLosses_map`: the decision engine counts the same losses.
- Theorem `memory_faithful_iff`: the histories that are read back as they were stored.
-/

namespace Karsa
namespace TradeMemory

/-- `MAX_ENTRIES_PER_SYMBOL`. -/
def maxEntriesPerSymbol : ℕ := 20

/-! ## Storing -/

/-- A call of `store`, with the time of its clock. -/
structure StoreCall where
  time : ℚ
  pnlPct : PyDecimal
  holdDurationMin : ℤ
  regime : Text
  exitReason : Text
  entryConfidence : PyDecimal
  features : Option (List (Text × Json))

/-- The features, left out where there are none. -/
def featureMember (features : Option (List (Text × Json))) : List (Text × Json) :=
  match features with
  | some (item :: rest) => [("features".toList, .dict (item :: rest))]
  | some [] | none => []

/-- `entry`. -/
def entry (c : StoreCall) : Json :=
  .dict (("pnl_pct".toList, .float c.pnlPct.toFloat) ::
    ("hold_min".toList, .int c.holdDurationMin) ::
    ("regime".toList, .str c.regime) ::
    ("exit".toList, .str c.exitReason) ::
    ("confidence".toList, .float c.entryConfidence.toFloat) :: featureMember c.features)

section Memory

variable (repr : ℚ → Json.FloatLiteral) (depth : ℕ)

/-- `store`: an entry that cannot be written is logged and left out. -/
def store (s : SortedSet Text) (c : StoreCall) : SortedSet Text :=
  match Json.dumps repr (entry c) with
  | none => s
  | some member => SortedSet.log Text.atMost maxEntriesPerSymbol s (c.time, member)

/-! ## Reading -/

/-- An entry is left out for its regime; `none` is the `AttributeError` of a value that is no
dictionary. -/
def otherRegime (regime : Option Text) (value : Json) : Option Bool :=
  match regime with
  | none | some [] => some false
  | some regime =>
      match value with
      | .dict items =>
          match Dict.get "regime".toList items with
          | some (.str r) => some (decide (r ≠ regime))
          | _ => some true
      | _ => none

/-- The loop of `get_recent`; `none` if an exception leaves it. -/
def collect (regime : Option Text) (count : ℕ) : List Json → List Text → Option (List Json)
  | entries, [] => some entries
  | entries, item :: rest =>
      match Json.loads depth item with
      | .error .decode => collect regime count entries rest
      | .error _ => none
      | .ok value =>
          match otherRegime regime value with
          | none => none
          | some true => collect regime count entries rest
          | some false =>
              if count ≤ entries.length + 1 then some (entries ++ [value])
              else collect regime count (entries ++ [value]) rest

/-- `get_recent`. -/
def getRecent (regime : Option Text) (count : ℕ) (s : SortedSet Text) : List Json :=
  (collect depth regime count [] (SortedSet.zrevrange 0 (count * 3 - 1) s)).getD []

/-! ## The check -/

/-- `t.get(key, default)`. -/
def field (t : Json) (key : Text) (default : Json) : Option Json :=
  match t with
  | .dict items => some ((Dict.get key items).getD default)
  | _ => none

/-- `x < 0`. -/
def negative : PyFloat → Bool
  | .nan => false
  | .infinity neg => neg
  | .finite x => decide (x < 0)

/-- `pnl < 0`; `none` is a `TypeError`. -/
def isLoss (t : Json) : Option Bool :=
  match field t "pnl_pct".toList (.int 0) with
  | some (.float x) => some (negative x)
  | some (.int n) => some (decide (n < 0))
  | some (.bool _) => some false
  | _ => none

/-- `"breakeven" in reason or "stagnation" in reason`; `none` is a `TypeError`. -/
def isBreakeven (t : Json) : Option Bool :=
  match field t "exit_reason".toList (.str []) with
  | some (.str reason) =>
      some (reason.contains "breakeven".toList || reason.contains "stagnation".toList)
  | _ => none

/-- Losses and breakevens up to the first trade that is no loss. -/
def countStreak : List Json → Option (ℕ × ℕ)
  | [] => some (0, 0)
  | t :: rest =>
      match isLoss t with
      | none => none
      | some false => some (0, 0)
      | some true =>
          match isBreakeven t with
          | none => none
          | some breakeven =>
              (countStreak rest).map fun n => (n.1 + 1, if breakeven then n.2 + 1 else n.2)

/-- `check_consecutive_losses` for the trades it has read. -/
def checkConsecutiveLosses (trades : List Json) : Bool :=
  match countStreak trades with
  | none => false
  | some (consecutive, breakevenStreak) => decide (3 ≤ consecutive ∨ 4 ≤ breakevenStreak)

/-! ## Histories -/

/-- The calls of `store` for a symbol, one after the other. -/
structure History where
  calls : List StoreCall
  ordered : calls.Pairwise fun a b => a.time < b.time

/-- What a history leaves in Redis. -/
def stored (h : History) : SortedSet Text :=
  run (store repr) [] h.calls

/-- The JSON text of a call. -/
def member (c : StoreCall) : Text :=
  Json.write repr (entry c)

/-- The calls of a history, the newest first, of equal entries only the newest. -/
def lastDifferent (h : History) : List StoreCall :=
  recencyBy (member repr) h.calls.reverse

/-- The entries of a history can be written and read. -/
def Storable (h : History) : Prop :=
  ∀ c ∈ h.calls, Json.Readable repr depth (entry c)

end Memory

/-! ## What is read back -/

section ReadBack

variable {repr : ℚ → Json.FloatLiteral} {depth : ℕ} {h : History}

/-- A readable entry is a member of the set. -/
theorem store_of_readable {c : StoreCall} (hc : Json.Readable repr depth (entry c))
    (s : SortedSet Text) :
    store repr s c = SortedSet.log Text.atMost maxEntriesPerSymbol s (c.time, member repr c) := by
  rw [store, Json.dumps, if_pos (Json.fits_of_readable hc)]
  rfl

/-- Storing keeps the last different entries. -/
theorem newest_stored (hread : Storable repr depth h) :
    (stored repr h).newest =
      ((lastDifferent repr h).take maxEntriesPerSymbol).map (member repr) := by
  have hrun : ∀ (calls : List StoreCall) (s : SortedSet Text),
      (∀ c ∈ calls, Json.Readable repr depth (entry c)) →
      run (store repr) s calls =
        run (SortedSet.log Text.atMost maxEntriesPerSymbol) s
          (calls.map fun c => (c.time, member repr c)) := by
    intro calls
    induction calls with
    | nil => exact fun s _ => rfl
    | cons c rest ih =>
        intro s hcalls
        rw [List.forall_mem_cons] at hcalls
        rw [run_cons, List.map_cons, run_cons, store_of_readable hcalls.1, ih _ hcalls.2]
  have hordered : (h.calls.map fun c => (c.time, member repr c)).Pairwise
      fun a b => a.1 < b.1 := List.pairwise_map.mpr h.ordered
  rw [stored, hrun h.calls [] hread, (SortedSet.newest_run hordered _).1, List.map_map,
    lastDifferent, List.map_take, map_recencyBy, List.map_reverse]
  rfl

/-- The loop takes as many entries as are asked for, and at least one. -/
theorem collect_map {l : List StoreCall} (hread : ∀ c ∈ l, Json.Readable repr depth (entry c))
    (count : ℕ) (entries : List Json) :
    collect depth none count entries (l.map (member repr)) =
      some (entries ++ (l.take (max 1 (count - entries.length))).map entry) := by
  induction l generalizing entries with
  | nil => simp [collect]
  | cons c rest ih =>
      rw [List.forall_mem_cons] at hread
      rcases Json.loads_dumps hread.1 with ⟨text, hdumps, hloads⟩
      have htext : member repr c = text := by
        rw [Json.dumps, if_pos (Json.fits_of_readable hread.1)] at hdumps
        exact Option.some.inj hdumps
      rw [List.map_cons, collect, htext, hloads]
      dsimp only [otherRegime]
      split_ifs with hcount
      · have hone : max 1 (count - entries.length) = 1 := by omega
        rw [hone]
        rfl
      · have hmore : max 1 (count - entries.length) =
            max 1 (count - (entries ++ [entry c]).length) + 1 := by
          rw [List.length_append, List.length_singleton]
          omega
        rw [ih hread.2, hmore, List.take_succ_cons, List.map_cons, List.append_assoc]
        rfl

/-- The trades read back are the last different ones. -/
theorem getRecent_stored (hread : Storable repr depth h) {k : ℕ} (hk : k ≤ 20) :
    getRecent depth none k (stored repr h) =
      ((lastDifferent repr h).take (max 1 k)).map entry := by
  have hnewest := newest_stored hread
  have hlength : (stored repr h).length = (stored repr h).newest.length := by
    simp [SortedSet.newest]
  have hrange : SortedSet.zrevrange 0 (k * 3 - 1) (stored repr h) =
      (((lastDifferent repr h).take maxEntriesPerSymbol).take
        (if k = 0 then maxEntriesPerSymbol else k * 3)).map (member repr) := by
    have hdrop : (SortedSet.fromEnd (stored repr h).length 0).toNat = 0 := by
      simp [SortedSet.fromEnd]
    unfold SortedSet.zrevrange
    rw [hdrop, List.drop_zero, ← SortedSet.newest]
    split_ifs with hzero
    · have htake : (SortedSet.fromEnd (stored repr h).length (k * 3 - 1) + 1).toNat =
          (stored repr h).length := by
        unfold SortedSet.fromEnd
        rw [if_pos (by omega)]
        omega
      rw [htake, hlength, List.take_length, hnewest, List.take_take, min_self]
    · have htake : (SortedSet.fromEnd (stored repr h).length (k * 3 - 1) + 1).toNat = k * 3 := by
        unfold SortedSet.fromEnd
        rw [if_neg (by omega)]
        omega
      rw [htake, hnewest, ← List.map_take]
  have hmem : ∀ c ∈ ((lastDifferent repr h).take maxEntriesPerSymbol).take
      (if k = 0 then maxEntriesPerSymbol else k * 3), Json.Readable repr depth (entry c) := by
    intro c hc
    have hcall : c ∈ lastDifferent repr h := List.mem_of_mem_take (List.mem_of_mem_take hc)
    exact hread c (by simpa using recencyBy_subset _ _ hcall)
  have hcut : min (min (max 1 k) (if k = 0 then maxEntriesPerSymbol else k * 3))
      maxEntriesPerSymbol = max 1 k := by
    unfold maxEntriesPerSymbol
    split_ifs <;> omega
  rw [getRecent, hrange, collect_map hmem, Option.getD_some, List.nil_append, List.length_nil,
    Nat.sub_zero, List.take_take, List.take_take, hcut]

/-- The last `k` trades of a history, the newest first. -/
def lastTrades (h : History) (k : ℕ) : List Json :=
  (h.calls.reverse.take k).map entry

/-- Lists of calls with the same texts have the same entries. -/
theorem map_entry_eq_iff {l m : List StoreCall}
    (hl : ∀ c ∈ l, Json.Readable repr depth (entry c))
    (hm : ∀ c ∈ m, Json.Readable repr depth (entry c)) :
    l.map entry = m.map entry ↔ l.map (member repr) = m.map (member repr) := by
  constructor
  · intro heq
    have hwrite := congrArg (List.map (Json.write repr)) heq
    rw [List.map_map, List.map_map] at hwrite
    exact hwrite
  · intro heq
    induction l generalizing m with
    | nil =>
        have hnil : m = [] := by simpa using heq.symm
        rw [hnil]
    | cons c rest ih =>
        cases m with
        | nil => cases heq
        | cons d more =>
            rw [List.forall_mem_cons] at hl hm
            rw [List.map_cons, List.map_cons, List.cons.injEq] at heq
            rw [List.map_cons, List.map_cons, Json.write_injOn hl.1 hm.1 heq.1,
              ih hl.2 hm.2 heq.2]

/-- Entries that can be read are told apart by their texts. -/
theorem nodup_members_iff {l : List StoreCall}
    (hread : ∀ c ∈ l, Json.Readable repr depth (entry c)) :
    (l.map (member repr)).Nodup ↔ (l.map entry).Nodup := by
  have hmap : l.map (member repr) = (l.map entry).map (Json.write repr) := by
    rw [List.map_map]
    rfl
  rw [hmap]
  refine ⟨List.Nodup.of_map _, List.Nodup.map_on ?_⟩
  intro v hv w hw hwrite
  rcases List.mem_map.mp hv with ⟨c, hc, rfl⟩
  rcases List.mem_map.mp hw with ⟨d, hd, rfl⟩
  exact Json.write_injOn (hread c hc) (hread d hd) hwrite

/-- A history is read back if the entries asked for differ; asked for none, one is returned. -/
theorem getRecent_eq_iff (hread : Storable repr depth h) {k : ℕ} (hk : k ≤ 20) :
    getRecent depth none k (stored repr h) = lastTrades h k ↔
      (k = 0 → h.calls = []) ∧ (lastTrades h k).Nodup := by
  rw [getRecent_stored hread hk]
  unfold lastTrades
  cases k with
  | zero =>
      cases hcalls : h.calls.reverse with
      | nil =>
          have hnil : h.calls = [] := by simpa using hcalls
          simp [lastDifferent, recencyBy, hnil]
      | cons c rest =>
          have hne : h.calls ≠ [] := by
            intro hnil
            rw [hnil] at hcalls
            cases hcalls
          simp [lastDifferent, recencyBy, hcalls, hne]
  | succ k =>
      have hreverse : ∀ c ∈ h.calls.reverse, Json.Readable repr depth (entry c) :=
        fun c hc => hread c (List.mem_reverse.mp hc)
      have hfront : ∀ c ∈ h.calls.reverse.take (k + 1), Json.Readable repr depth (entry c) :=
        fun c hc => hreverse c (List.mem_of_mem_take hc)
      have hlast : ∀ c ∈ (lastDifferent repr h).take (k + 1), Json.Readable repr depth (entry c) :=
        fun c hc => hreverse c (recencyBy_subset _ _ (List.mem_of_mem_take hc))
      rw [max_eq_right (by omega), map_entry_eq_iff hlast hfront, ← nodup_members_iff hfront,
        List.map_take, List.map_take, lastDifferent, map_recencyBy, take_recency_iff]
      simp

end ReadBack

/-! ## Loss streaks -/

section Streaks

variable {repr : ℚ → Json.FloatLiteral} {depth : ℕ} {h : History}

/-- The profit of a trade is below zero. -/
def StoreCall.loses (c : StoreCall) : Bool :=
  match c.pnlPct with
  | .nan => false
  | .infinity neg => neg
  | .finite neg coefficient _ => neg && decide (coefficient ≠ 0)

/-- Its exit reason speaks of a breakeven or of stagnation. -/
def StoreCall.stalls (c : StoreCall) : Bool :=
  c.exitReason.contains "breakeven".toList || c.exitReason.contains "stagnation".toList

/-- The last three trades are losses, or the last four are losses that stalled. -/
def LossStreak (h : History) : Prop :=
  let last := h.calls.reverse
  (3 ≤ last.length ∧ ∀ c ∈ last.take 3, c.loses = true) ∨
    (4 ≤ last.length ∧ ∀ c ∈ last.take 4, c.loses = true ∧ c.stalls = true)

/-- The signal is rejected: the check reads seven trades. -/
def rejects (repr : ℚ → Json.FloatLiteral) (depth : ℕ) (h : History) : Bool :=
  checkConsecutiveLosses (getRecent depth none 7 (stored repr h))

/-- The last three different trades have a float below zero. -/
def LastDifferentLose (repr : ℚ → Json.FloatLiteral) (h : History) : Prop :=
  3 ≤ (lastDifferent repr h).length ∧
    ∀ c ∈ (lastDifferent repr h).take 3, negative c.pnlPct.toFloat = true

/-- The streak of stored trades: no entry has the key `exit_reason`. -/
theorem countStreak_map (l : List StoreCall) :
    countStreak (l.map entry) =
      some ((l.takeWhile fun c => negative c.pnlPct.toFloat).length, 0) := by
  induction l with
  | nil => rfl
  | cons c rest ih =>
      have hloss : isLoss (entry c) = some (negative c.pnlPct.toFloat) := by
        simp [isLoss, field, entry, Dict.get]
      have hnone : field (entry c) "exit_reason".toList (.str []) = some (.str []) := by
        unfold field entry featureMember
        cases c.features with
        | none => simp [Dict.get]
        | some features => cases features <;> simp [Dict.get]
      have hreason : isBreakeven (entry c) = some false := by
        rw [isBreakeven, hnone]
        decide
      rw [List.map_cons, countStreak, hloss]
      cases hneg : negative c.pnlPct.toFloat with
      | false => simp [hneg]
      | true => simp [hneg, hreason, ih]

/-- At least `n` items at the front have a property. -/
theorem le_length_takeWhile_iff {α : Type} {p : α → Bool} {l : List α} {n : ℕ} :
    n ≤ (l.takeWhile p).length ↔ n ≤ l.length ∧ ∀ x ∈ l.take n, p x = true := by
  induction l generalizing n with
  | nil => simp
  | cons x rest ih =>
      cases n with
      | zero => simp
      | succ n =>
          cases hx : p x with
          | false => simp [hx]
          | true =>
              rw [List.takeWhile_cons_of_pos hx, List.length_cons, List.length_cons,
                List.take_succ_cons, List.forall_mem_cons, Nat.succ_le_succ_iff,
                Nat.succ_le_succ_iff, ih]
              simp [hx]

/-- Which histories are rejected. -/
theorem rejects_iff (hread : Storable repr depth h) :
    rejects repr depth h = true ↔ LastDifferentLose repr h := by
  have htake : ((lastDifferent repr h).take 7).take 3 = (lastDifferent repr h).take 3 := by
    rw [List.take_take]
    rfl
  have hlength : 3 ≤ ((lastDifferent repr h).take 7).length ↔
      3 ≤ (lastDifferent repr h).length := by
    rw [List.length_take]
    omega
  rw [rejects, getRecent_stored hread (by norm_num), checkConsecutiveLosses, countStreak_map]
  dsimp only
  rw [decide_eq_true_eq, LastDifferentLose, ← htake, ← hlength, ← le_length_takeWhile_iff]
  simp

/-- The decision engine's count of losses sees no exit reason. -/
theorem checkConsecutiveLosses_map {l : List StoreCall} {pnl : StoreCall → ℚ}
    (hpnl : ∀ c ∈ l, c.pnlPct.toFloat = .finite (pnl c)) :
    checkConsecutiveLosses (l.map entry) =
      Decision.DecisionEngine.consecutiveLosses (some (l.map fun c => ⟨pnl c, []⟩)) := by
  have hwhile : ((l.map fun c => (⟨pnl c, []⟩ : Risk.MemoryTrade)).takeWhile
      fun t => decide (t.pnlPct < 0)).length =
        (l.takeWhile fun c => negative c.pnlPct.toFloat).length := by
    induction l with
    | nil => rfl
    | cons c rest ih =>
        rw [List.forall_mem_cons] at hpnl
        have hsign : negative c.pnlPct.toFloat = decide (pnl c < 0) := by
          rw [hpnl.1]
          rfl
        rw [List.map_cons, List.takeWhile_cons, List.takeWhile_cons, hsign]
        by_cases hneg : pnl c < 0
        · simp only [hneg, decide_true, if_true, List.length_cons, ih hpnl.2]
        · simp only [hneg, decide_false, Bool.false_eq_true, if_false, List.length_nil]
  have hreason : ∀ t ∈ (l.map fun c => (⟨pnl c, []⟩ : Risk.MemoryTrade)).takeWhile
      (fun t => decide (t.pnlPct < 0)),
      ¬ decide ("breakeven".toList <:+: t.exitReason ∨ "stagnation".toList <:+: t.exitReason) =
        true := by
    intro t ht
    rcases List.mem_map.mp ((List.takeWhile_prefix _).subset ht) with ⟨c, -, rfl⟩
    change ¬ decide ("breakeven".toList <:+: ([] : Text) ∨ "stagnation".toList <:+: []) = true
    decide
  unfold checkConsecutiveLosses Decision.DecisionEngine.consecutiveLosses
  rw [countStreak_map, Option.getD_some]
  dsimp only
  rw [List.filter_eq_nil_iff.mpr hreason, hwhile]
  rfl

/-- A history is read back as it was stored, and its loss streak is rejected, exactly where the
entries asked for differ and the streak is one of different trades. -/
theorem memory_faithful_iff (repr : ℚ → Json.FloatLiteral) (depth : ℕ) (h : History)
    (hread : Storable repr depth h) (k : ℕ) (hk : k ≤ 20) :
    (getRecent depth none k (stored repr h) = lastTrades h k ∧
        (LossStreak h → rejects repr depth h = true)) ↔
      ((k = 0 → h.calls = []) ∧ (lastTrades h k).Nodup) ∧
        (LossStreak h → LastDifferentLose repr h) := by
  rw [getRecent_eq_iff hread hk, rejects_iff hread]

/-- A loss of half a percent, behind a stop, at the given time. -/
def halfPercentLoss (time : ℚ) : StoreCall where
  time := time
  pnlPct := .finite true 5 (-1)
  holdDurationMin := 45
  regime := "RANGE".toList
  exitReason := "stop_loss".toList
  entryConfidence := .finite false 75 0
  features := none

/-- Losses at the given times. -/
def lossesAt (times : List ℚ) (h : times.Pairwise (· < ·)) : History where
  calls := times.map halfPercentLoss
  ordered := by
    rw [List.pairwise_map]
    exact h

theorem pointDigits_half : Json.pointDigits [0] [5] = true := rfl

/-- How `repr` writes the two floats of the losses. -/
def lossRepr (x : ℚ) : Json.FloatLiteral :=
  if x.den = 1 then .point false [7, 5] [0] rfl else .point true [0] [5] pointDigits_half

/-- A loss of half a percent can be written and read, whatever its hold time and its reason. -/
theorem readable_half (time : ℚ) (hold : ℕ) (reason : Text)
    (hhold : (natDigits hold).length ≤ maxStrDigits) :
    Json.Readable lossRepr 1 (entry { halfPercentLoss time with
      holdDurationMin := hold, exitReason := reason }) := by
  have hpnl : (PyDecimal.finite true 5 (-1)).toFloat = .finite (-1 / 2) := by decide +kernel
  have hconfidence : (PyDecimal.finite false 75 0).toFloat = .finite 75 := by decide +kernel
  have hloss : PyFloat.ofRat (lossRepr (-1 / 2)).value = .finite (-1 / 2) := by decide +kernel
  have hsure : PyFloat.ofRat (lossRepr 75).value = .finite 75 := by decide +kernel
  refine ⟨by simp only [Dict.keys, halfPercentLoss, featureMember, List.map_cons,
    List.map_nil]; decide, ?_⟩
  simp only [halfPercentLoss, featureMember, hpnl, hconfidence, List.forall_mem_cons,
    List.not_mem_nil, false_imp_iff, implies_true, and_true]
  exact ⟨hloss, hhold, trivial, trivial, hsure⟩

/-- The losses can be written and read. -/
theorem lossesAt_storable (times : List ℚ) (h : times.Pairwise (· < ·)) :
    Storable lossRepr 1 (lossesAt times h) := by
  intro c hc
  rcases List.mem_map.mp hc with ⟨time, -, rfl⟩
  exact readable_half time 45 "stop_loss".toList (by decide +kernel)

/-- Of losses of the same text the last one is left. -/
theorem lastDifferent_lossesAt :
    lastDifferent lossRepr (lossesAt [1, 2, 3] (by decide +kernel)) = [halfPercentLoss 3] := by
  have hsame : ∀ t, member lossRepr (halfPercentLoss t) = member lossRepr (halfPercentLoss 3) :=
    fun _ => rfl
  simp [lastDifferent, lossesAt, recencyBy, hsame 1, hsame 2]

/-- Three losses of the same text are one, and the streak is not seen. -/
theorem equal_losses_forgotten :
    Storable lossRepr 1 (lossesAt [1, 2, 3] (by decide +kernel)) ∧
      (getRecent 1 none 3 (stored lossRepr (lossesAt [1, 2, 3] (by decide +kernel)))).length = 1 ∧
      (lastTrades (lossesAt [1, 2, 3] (by decide +kernel)) 3).length = 3 ∧
      LossStreak (lossesAt [1, 2, 3] (by decide +kernel)) ∧
      rejects lossRepr 1 (lossesAt [1, 2, 3] (by decide +kernel)) = false := by
  have hread := lossesAt_storable [1, 2, 3] (by decide +kernel)
  refine ⟨hread, ?_, rfl, Or.inl ?_, ?_⟩
  · rw [getRecent_stored hread (by norm_num), lastDifferent_lossesAt]
    rfl
  · simp [lossesAt, StoreCall.loses, halfPercentLoss]
  · rw [Bool.eq_false_iff, ne_eq, rejects_iff hread, LastDifferentLose, lastDifferent_lossesAt]
    simp

/-- A loss of half a percent that stalled, held for as many minutes as its time says. -/
def stalledLoss (time : ℕ) : StoreCall :=
  { halfPercentLoss time with holdDurationMin := time, exitReason := "stagnation_exit".toList }

/-- Four of them. -/
def stalledLosses : History where
  calls := [45, 46, 47, 48].map stalledLoss
  ordered := by
    rw [List.pairwise_map]
    decide +kernel

/-- Four different losses are read back, the newest first, and rejected. -/
theorem memory_faithful_iff_stalledLosses :
    getRecent 1 none 4 (stored lossRepr stalledLosses) =
        [48, 47, 46, 45].map (fun time => entry (stalledLoss time)) ∧
      LossStreak stalledLosses ∧ rejects lossRepr 1 stalledLosses = true := by
  have hread : Storable lossRepr 1 stalledLosses := by
    have hhold : ∀ time ∈ [45, 46, 47, 48], (natDigits time).length ≤ maxStrDigits := by
      decide +kernel
    intro c hc
    rcases List.mem_map.mp hc with ⟨time, htime, rfl⟩
    exact readable_half time time _ (hhold time htime)
  have hdifferent : (stalledLosses.calls.reverse.map (member lossRepr)).Nodup := by
    decide +kernel
  have hentries : (lastTrades stalledLosses 4).Nodup := by
    refine List.Nodup.of_map (Json.write lossRepr) ?_
    rw [lastTrades, List.map_map]
    exact hdifferent
  have hstreak : LossStreak stalledLosses := Or.inr ⟨le_rfl, by decide +kernel⟩
  have hfaithful := (memory_faithful_iff lossRepr 1 stalledLosses hread 4 (by decide)).mpr
    ⟨⟨nofun, hentries⟩, fun _ => ⟨?_, ?_⟩⟩
  · exact ⟨hfaithful.1, hstreak, hfaithful.2 hstreak⟩
  · rw [lastDifferent, recencyBy_eq_self hdifferent]
    decide
  · rw [lastDifferent, recencyBy_eq_self hdifferent]
    decide +kernel

end Streaks

end TradeMemory
end Karsa
