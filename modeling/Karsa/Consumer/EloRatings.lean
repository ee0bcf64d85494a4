import Karsa.Core.ShadowStores
import Karsa.Foundations.ControlFlow
import Karsa.Foundations.Runs

/-!
# Live loop - Ratings of the strategies

`_elo_refresh_loop` wakes up every few minutes, reads the fifty most recently closed trades and
applies each to the rating of its strategy, the pair of its regime and its side.  A mark in
Redis, the id of the last trade, should keep a trade from being applied again.  The query
returns no ids: every trade has the empty id, which is never stored as a mark.

Between the cycles the trade store records entries, exits and complete trades.  The database
and Redis answer.  The trades applied are kept beside the state, in their order.

Main results:

- Definition `refresh`: one cycle.
- Theorem `cycle_spec`: a cycle applies the trades it reads, and stores no mark.
- Theorem `exact_throughout_iff`: the runs in which each trade is applied once.
-/

namespace Karsa
namespace Elo

open Trades (Trade TradeTable Exit)
open ShadowStores (TradeEntry FullTrade RecentTrade recentRow closedTrades window isRowCount)

/-! ## Ratings -/

/-- `K_FACTOR`. -/
def kFactor : ℚ := 32

/-- `BASELINE_ELO`. -/
def baselineElo : ℚ := 1500

/-- The record of a strategy in Redis. -/
structure Rating where
  elo : ℚ
  wins : ℕ
  losses : ℕ
  winRate : ℚ
  lastTradeId : Text
deriving Repr, DecidableEq

namespace Rating

/-- What a strategy without a record starts from. -/
def baseline : Rating :=
  ⟨baselineElo, 0, 0, 0, []⟩

/-- The record behind a trade. -/
def update (r : Rating) (pnl : ℚ) (tradeId : Text) : Rating :=
  let score : ℚ := if 0 < pnl then 1 else 0
  let wins := if 0 < pnl then r.wins + 1 else r.wins
  let losses := if 0 < pnl then r.losses else r.losses + 1
  { elo := quantize (1 / 100) (r.elo + kFactor * (score - 1 / 2))
    wins := wins
    losses := losses
    winRate := quantize (1 / 10000) ((wins : ℚ) / (max 1 (wins + losses) : ℕ))
    lastTradeId := tradeId }

/-- How many trades the record counts. -/
def played (r : Rating) : ℕ :=
  r.wins + r.losses

end Rating

/-- The record of a strategy. -/
def ratingOf (ratings : Dict Text Rating) (key : Text) : Rating :=
  (ratings.get key).getD .baseline

/-- `strategy_key`; a regime that is NULL is printed as `None`. -/
def strategyKey (t : RecentTrade) : Text :=
  t.regime.getD "None".toList ++ ':' :: t.side

/-- `trade.get("id", "")`: the query selects no id. -/
def tradeId (_ : RecentTrade) : Text :=
  []

/-! ## A cycle -/

/-- The trades the query returns, the latest exit first. -/
def recentTrades (table : TradeTable) : List Trade :=
  (window 50 0 (closedTrades table)).getD []

/-- The local variables of a cycle, the ratings in Redis and the trades applied so far. -/
structure Locals where
  ratings : Dict Text Rating
  lastId : Option Text
  applied : List Trade
deriving Repr, DecidableEq

/-- `if last_id`. -/
def marks (lastId : Option Text) : Bool :=
  lastId.any fun id => decide (id ≠ [])

/-- `last_id and trade_id <= last_id`. -/
def skips (lastId : Option Text) (id : Text) : Bool :=
  marks lastId && lastId.any (Text.atMost id)

/-- The body of the loop over the trades; `float` of a missing result raises. -/
def processTrade (row : Trade) (s : Locals) : Flow Locals :=
  let trade := recentRow row
  if skips s.lastId (tradeId trade) then .next s
  else match trade.pnl with
    | none => .raise s
    | some pnl =>
        let rating := ratingOf s.ratings (strategyKey trade)
        .next
          { ratings := s.ratings.set (strategyKey trade) (rating.update pnl (tradeId trade))
            lastId := some (tradeId trade)
            applied := s.applied ++ [row] }

/-- The tables, the ratings and the mark in Redis, and the trades applied so far. -/
structure State where
  table : TradeTable
  ratings : Dict Text Rating
  mark : Option Text
  applied : List Trade

/-- No trades and no records. -/
def State.start : State :=
  ⟨.empty, [], none, []⟩

/-- One cycle of `_elo_refresh_loop`.  An exception ends it before the mark is stored. -/
def refresh (s : State) : State :=
  let trades := recentTrades s.table
  if trades = [] then s
  else match Flow.blocks (trades.map processTrade) ⟨s.ratings, s.mark, s.applied⟩ with
    | .next t =>
        { s with
          ratings := t.ratings
          mark := if marks t.lastId then t.lastId else s.mark
          applied := t.applied }
    | .ret t | .raise t => { s with ratings := t.ratings, applied := t.applied }

/-! ## Updates of the table -/

/-- What the trade store writes between the cycles. -/
inductive Update where
  | recordEntry (e : TradeEntry)
  | closeTrade (symbol : Text) (tradeId : Option ℕ) (e : Exit)
  | recordFullTrade (f : FullTrade)
deriving Repr, DecidableEq

/-- Without an id the latest open trade of the symbol is closed; an empty regime is not
written. -/
def Update.apply (table : TradeTable) : Update → TradeTable
  | .recordEntry e => table.insert e.row
  | .closeTrade symbol tradeId e =>
      match tradeId.or ((table.openTradeBySymbol symbol).map Trade.id) with
      | none => table
      | some id => table.closeTrade id { e with regime := e.regime.filter (· ≠ []) }
  | .recordFullTrade f => table.insert f.row

/-- The table behind some updates. -/
def tableAfter (table : TradeTable) (updates : List Update) : TradeTable :=
  run Update.apply table updates

/-- Some updates, and the cycle that follows them. -/
def cycle (s : State) (updates : List Update) : State :=
  refresh { s with table := tableAfter s.table updates }

/-! ## What the records count -/

/-- The trade is one of the strategy, and won. -/
def wonBy (key : Text) (t : Trade) : Bool :=
  decide (strategyKey (recentRow t) = key) && decide (0 < t.pnl.getD 0)

/-- The trade is one of the strategy, and did not win. -/
def lostBy (key : Text) (t : Trade) : Bool :=
  decide (strategyKey (recentRow t) = key) && decide (¬ 0 < t.pnl.getD 0)

/-- The records count these trades. -/
structure Tallied (ratings : Dict Text Rating) (trades : List Trade) : Prop where
  wins : ∀ key, (ratingOf ratings key).wins = trades.countP (wonBy key)
  losses : ∀ key, (ratingOf ratings key).losses = trades.countP (lostBy key)
  total : ratings.total Rating.played = trades.length

/-- Their order does not matter. -/
theorem Tallied.of_perm {ratings : Dict Text Rating} {trades trades' : List Trade}
    (h : Tallied ratings trades) (hperm : trades.Perm trades') : Tallied ratings trades' := by
  refine ⟨fun key => ?_, fun key => ?_, ?_⟩
  · rw [h.wins, hperm.countP_eq]
  · rw [h.losses, hperm.countP_eq]
  · rw [h.total, hperm.length_eq]

/-- The record that is written is the one read back. -/
@[simp] theorem ratingOf_set_self (ratings : Dict Text Rating) (key : Text) (r : Rating) :
    ratingOf (ratings.set key r) key = r := by
  rw [ratingOf, Dict.get_set_self, Option.getD_some]

/-- The other strategies keep theirs. -/
theorem ratingOf_set_of_ne {key other : Text} (hne : other ≠ key) (ratings : Dict Text Rating)
    (r : Rating) : ratingOf (ratings.set key r) other = ratingOf ratings other := by
  rw [ratingOf, Dict.get_set_of_ne hne, ratingOf]

/-- A record counts one more trade. -/
theorem Rating.played_update (r : Rating) (pnl : ℚ) (id : Text) :
    (r.update pnl id).played = r.played + 1 := by
  unfold Rating.played Rating.update
  dsimp only
  split_ifs <;> omega

/-- The record of the strategy counts the trade that is applied. -/
theorem Tallied.apply {ratings : Dict Text Rating} {trades : List Trade}
    (h : Tallied ratings trades) {t : Trade} {pnl : ℚ} (hpnl : t.pnl = some pnl) (id : Text) :
    Tallied (ratings.set (strategyKey (recentRow t))
        ((ratingOf ratings (strategyKey (recentRow t))).update pnl id)) (trades ++ [t]) := by
  refine ⟨fun key => ?_, fun key => ?_, ?_⟩
  · rw [List.countP_append, List.countP_singleton, ← h.wins key]
    by_cases hkey : strategyKey (recentRow t) = key
    · subst hkey
      rw [ratingOf_set_self]
      simp only [Rating.update, wonBy, hpnl, Option.getD_some, decide_true, Bool.true_and,
        decide_eq_true_eq]
      split_ifs <;> rfl
    · rw [ratingOf_set_of_ne (Ne.symm hkey)]
      simp [wonBy, hkey]
  · rw [List.countP_append, List.countP_singleton, ← h.losses key]
    by_cases hkey : strategyKey (recentRow t) = key
    · subst hkey
      rw [ratingOf_set_self]
      simp only [Rating.update, lostBy, hpnl, Option.getD_some, decide_true, Bool.true_and,
        decide_eq_true_eq]
      split_ifs <;> rfl
    · rw [ratingOf_set_of_ne (Ne.symm hkey)]
      simp [lostBy, hkey]
  · have hset := Dict.total_set Rating.played ratings (strategyKey (recentRow t))
      ((ratingOf ratings (strategyKey (recentRow t))).update pnl id)
    have hold : (((ratings.get (strategyKey (recentRow t))).map Rating.played).getD 0) =
        (ratingOf ratings (strategyKey (recentRow t))).played := by
      unfold ratingOf
      cases ratings.get (strategyKey (recentRow t)) <;> rfl
    rw [hold, Rating.played_update] at hset
    rw [List.length_append, List.length_singleton, ← h.total]
    omega

/-! ## A cycle applies what it reads -/

/-- The query returns the first fifty. -/
theorem recentTrades_eq (table : TradeTable) :
    recentTrades table = (closedTrades table).take 50 := by
  simp [recentTrades, window, isRowCount]

/-- A trade with a result is applied where no mark is set, and sets none. -/
theorem processTrade_spec {s : Locals} (hmark : marks s.lastId = false)
    (htallied : Tallied s.ratings s.applied) {t : Trade} (hpnl : t.pnl ≠ none) :
    ∃ s', processTrade t s = .next s' ∧ marks s'.lastId = false ∧
      Tallied s'.ratings s'.applied ∧ s'.applied = s.applied ++ [t] := by
  rcases Option.ne_none_iff_exists'.1 hpnl with ⟨pnl, hpnl⟩
  have hread : skips s.lastId (tradeId (recentRow t)) = false := by
    rw [skips, hmark, Bool.false_and]
  have hrow : (recentRow t).pnl = some pnl := hpnl
  unfold processTrade
  dsimp only
  rw [hread, if_neg Bool.false_ne_true, hrow]
  exact ⟨_, rfl, rfl, htallied.apply hpnl _, rfl⟩

/-- So are all trades of a list, one after the other. -/
theorem processTrades_spec {rows : List Trade} (hpnl : ∀ t ∈ rows, t.pnl ≠ none) {s : Locals}
    (hmark : marks s.lastId = false) (htallied : Tallied s.ratings s.applied) :
    ∃ s', Flow.blocks (rows.map processTrade) s = .next s' ∧ marks s'.lastId = false ∧
      Tallied s'.ratings s'.applied ∧ s'.applied = s.applied ++ rows := by
  induction rows generalizing s with
  | nil => exact ⟨s, rfl, hmark, htallied, (List.append_nil _).symm⟩
  | cons t rest ih =>
      rcases processTrade_spec hmark htallied (hpnl t List.mem_cons_self) with
        ⟨mid, hmid, hmark', htallied', happlied⟩
      rcases ih (fun t' ht' => hpnl t' (List.mem_cons_of_mem t ht')) hmark' htallied' with
        ⟨s', hs', hmark'', htallied'', happlied'⟩
      refine ⟨s', ?_, hmark'', htallied'', ?_⟩
      · rw [List.map_cons, Flow.blocks_cons, hmid, Flow.next_andThen, hs']
      · rw [happlied', happlied, List.append_assoc, List.singleton_append]

/-- Closed trades have a result. -/
def Priced (table : TradeTable) : Prop :=
  ∀ t ∈ table.rows, t.isOpen = false → t.pnl ≠ none

/-- What holds whatever is closed between the cycles: no mark is stored, closed trades have
results, and the records count the trades applied. -/
structure Sound (s : State) : Prop where
  unmarked : s.mark = none
  priced : Priced s.table
  tallied : Tallied s.ratings s.applied

theorem mem_closedTrades {table : TradeTable} {t : Trade} :
    t ∈ closedTrades table ↔ t ∈ table.rows ∧ t.isOpen = false := by
  simp [closedTrades, List.mem_insertionSort]

/-- A cycle applies the trades it reads, and stores no mark. -/
theorem refresh_spec {s : State} (h : Sound s) :
    Sound (refresh s) ∧ (refresh s).table = s.table ∧
      (refresh s).applied = s.applied ++ recentTrades s.table := by
  unfold refresh
  dsimp only
  split_ifs with hnone
  · exact ⟨h, rfl, by rw [hnone, List.append_nil]⟩
  · have hpnl : ∀ t ∈ recentTrades s.table, t.pnl ≠ none := by
      intro t ht
      rw [recentTrades_eq] at ht
      rcases mem_closedTrades.1 (List.mem_of_mem_take ht) with ⟨hrow, hclosed⟩
      exact h.priced t hrow hclosed
    have hmark : marks s.mark = false := by
      rw [h.unmarked]
      rfl
    rcases processTrades_spec hpnl (s := ⟨s.ratings, s.mark, s.applied⟩) hmark h.tallied with
      ⟨t, ht, hmark', htallied, happlied⟩
    rw [ht]
    dsimp only
    rw [hmark', if_neg Bool.false_ne_true]
    exact ⟨⟨h.unmarked, h.priced, htallied⟩, rfl, happlied⟩

/-! ## What the updates leave -/

/-- An update leaves closed trades as they are, and every trade it closes has a result. -/
theorem Update.apply_spec (table : TradeTable) (u : Update) :
    (Priced table → Priced (u.apply table)) ∧
      ∀ t ∈ table.rows, t.isOpen = false → t ∈ (u.apply table).rows := by
  have hinsert : ∀ new : Trade, (new.isOpen = false → new.pnl ≠ none) →
      (Priced table → Priced (table.insert new)) ∧
        ∀ t ∈ table.rows, t.isOpen = false → t ∈ (table.insert new).rows := by
    intro new hnew
    refine ⟨?_, fun t ht _ => List.mem_append_left _ ht⟩
    intro hpriced t ht
    rcases List.mem_append.1 ht with hold | hnew'
    · exact hpriced t hold
    · rw [List.mem_singleton.1 hnew']
      exact hnew
  cases u with
  | recordEntry e => exact hinsert e.row fun h => absurd h (show ¬ true = false by decide)
  | recordFullTrade f => exact hinsert f.row fun _ => Option.some_ne_none f.pnl
  | closeTrade symbol tradeId e =>
      unfold Update.apply
      dsimp only
      cases tradeId.or ((table.openTradeBySymbol symbol).map Trade.id) with
      | none => exact ⟨id, fun t ht _ => ht⟩
      | some id =>
          refine ⟨?_, ?_⟩
          · intro hpriced t ht
            rcases List.mem_map.1 ht with ⟨old, hold, rfl⟩
            split_ifs
            · exact fun _ => Option.some_ne_none e.pnl
            · exact hpriced old hold
          · intro t ht hclosed
            refine List.mem_map.2 ⟨t, ht, if_neg ?_⟩
            rw [hclosed]
            exact fun h => Bool.false_ne_true h.2

/-- So do several updates. -/
theorem tableAfter_spec (table : TradeTable) (updates : List Update) :
    (Priced table → Priced (tableAfter table updates)) ∧
      ∀ t ∈ table.rows, t.isOpen = false → t ∈ (tableAfter table updates).rows := by
  induction updates generalizing table with
  | nil => exact ⟨id, fun t ht _ => ht⟩
  | cons u rest ih =>
      have hfirst := u.apply_spec table
      have hrest := ih (u.apply table)
      exact ⟨fun h => hrest.1 (hfirst.1 h),
        fun t ht hclosed => hrest.2 t (hfirst.2 t ht hclosed) hclosed⟩

/-- A cycle behind some updates. -/
theorem cycle_spec {s : State} (h : Sound s) (updates : List Update) :
    Sound (cycle s updates) ∧ (cycle s updates).table = tableAfter s.table updates ∧
      (cycle s updates).applied =
        s.applied ++ recentTrades (tableAfter s.table updates) :=
  refresh_spec (s := { s with table := tableAfter s.table updates })
    ⟨h.unmarked, (tableAfter_spec s.table updates).1 h.priced, h.tallied⟩

/-! ## Each trade once -/

/-- The trades closed behind the first table. -/
def closedSince (before after : TradeTable) : List Trade :=
  (closedTrades after).filter fun t => decide (t ∉ before.rows)

/-- The trades applied are the closed ones, each once, and the records count them. -/
structure Exact (s : State) : Prop where
  once : s.applied.Perm (closedTrades s.table)
  tallied : Tallied s.ratings (closedTrades s.table)

/-- The fifty most recently closed trades are those closed since the cycle before. -/
def ReadsNew (s : State) (updates : List Update) : Prop :=
  ((closedTrades (tableAfter s.table updates)).take 50).Perm
    (closedSince s.table (tableAfter s.table updates))

instance (s : State) (updates : List Update) : Decidable (ReadsNew s updates) :=
  inferInstanceAs (Decidable (List.Perm _ _))

/-- The records count the closed trades wherever these are the ones applied. -/
theorem exact_iff_perm {s : State} (h : Sound s) :
    Exact s ↔ s.applied.Perm (closedTrades s.table) :=
  ⟨Exact.once, fun hperm => ⟨hperm, h.tallied.of_perm hperm⟩⟩

/-- No closed trade is listed twice. -/
theorem nodup_closedTrades (table : TradeTable) : (closedTrades table).Nodup := by
  have hperm := List.perm_insertionSort (fun a b : Trade => b.exitTime.getD 0 ≤ a.exitTime.getD 0)
    (table.rows.filter fun t => !t.isOpen)
  rw [closedTrades, hperm.nodup_iff]
  exact table.distinct.of_map.filter _

/-- The closed trades are those of before, and those closed since. -/
theorem closedTrades_perm (table : TradeTable) (updates : List Update) :
    (closedTrades (tableAfter table updates)).Perm
      (closedTrades table ++ closedSince table (tableAfter table updates)) := by
  have hold : ((closedTrades (tableAfter table updates)).filter
      fun t => decide (t ∈ table.rows)).Perm (closedTrades table) := by
    rw [List.perm_ext_iff_of_nodup ((nodup_closedTrades _).filter _) (nodup_closedTrades table)]
    intro t
    rw [List.mem_filter, mem_closedTrades, mem_closedTrades, decide_eq_true_eq]
    constructor
    · rintro ⟨⟨_, hclosed⟩, hrow⟩
      exact ⟨hrow, hclosed⟩
    · rintro ⟨hrow, hclosed⟩
      exact ⟨⟨(tableAfter_spec table updates).2 t hrow hclosed, hclosed⟩, hrow⟩
  have hsplit := List.filter_append_perm (fun t => decide (t ∈ table.rows))
    (closedTrades (tableAfter table updates))
  refine hsplit.symm.trans (hold.append ?_)
  rw [closedSince]
  refine List.Perm.of_eq (List.filter_congr fun t _ => ?_)
  rw [decide_not]

/-- A cycle keeps each trade applied once exactly where all it reads are the trades closed
since the cycle before. -/
theorem cycle_exact_iff {s : State} (h : Sound s) (hexact : Exact s) (updates : List Update) :
    Exact (cycle s updates) ↔ ReadsNew s updates := by
  rcases cycle_spec h updates with ⟨hsound, htable, happlied⟩
  rw [exact_iff_perm hsound, htable, happlied, recentTrades_eq]
  have hclosed := closedTrades_perm s.table updates
  constructor
  · intro hperm
    have hboth := (hexact.once.symm.append_right _).trans (hperm.trans hclosed)
    exact (List.perm_append_left_iff _).1 hboth
  · intro hnew
    exact (hexact.once.append hnew).trans hclosed.symm

/-- At the start nothing is closed and nothing is applied. -/
theorem sound_start : Sound .start where
  unmarked := rfl
  priced := by
    intro t ht
    cases ht
  tallied := ⟨fun _ => rfl, fun _ => rfl, rfl⟩

/-- Each closed trade is applied once, in every state a run reaches behind a cycle, exactly in
the runs in which the fifty most recently closed trades of each cycle are those closed since
the cycle before. -/
theorem exact_throughout_iff (rounds : List (List Update)) :
    (∀ n, Exact (run cycle .start (rounds.take n))) ↔ Admits cycle ReadsNew .start rounds := by
  exact invariant_iff_admits_beside Sound Exact (fun _ updates hs => (cycle_spec hs updates).1)
    (fun _ updates hs hexact => cycle_exact_iff hs hexact updates) sound_start
    ((exact_iff_perm sound_start).2 List.Perm.nil)

/-! ## One trade, two cycles -/

/-- A long trade of a trend that gained five. -/
def wonTrade : FullTrade where
  symbol := "SOL/USDT".toList
  side := "LONG".toList
  amount := 1
  entryPrice := 100
  exitPrice := 105
  pnl := 5
  regime := "TREND_BULL".toList
  entryTime := 0
  exitTime := 3600
  exitReason := "take_profit".toList

/-- The second cycle applies the trade again: two wins for one closed trade. -/
theorem trade_applied_twice :
    let s := run cycle .start [[.recordFullTrade wonTrade], []]
    (closedTrades s.table).length = 1 ∧ s.ratings.total Rating.played = 2 ∧
      (ratingOf s.ratings "TREND_BULL:LONG".toList).wins = 2 ∧ ¬ Exact s := by
  have hcounts : (closedTrades (run cycle .start
        [[.recordFullTrade wonTrade], []]).table).length = 1 ∧
      (run cycle .start [[.recordFullTrade wonTrade], []]).ratings.total Rating.played = 2 ∧
      (ratingOf (run cycle .start [[.recordFullTrade wonTrade], []]).ratings
        "TREND_BULL:LONG".toList).wins = 2 := by
    decide +kernel
  refine ⟨hcounts.1, hcounts.2.1, hcounts.2.2, ?_⟩
  intro hexact
  have htotal := hexact.tallied.total
  rw [hcounts.1, hcounts.2.1] at htotal
  cases htotal

end Elo
end Karsa
