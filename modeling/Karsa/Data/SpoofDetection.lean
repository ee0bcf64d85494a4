import Karsa.Foundations.Dicts
import Karsa.Foundations.Sightings
import Mathlib.Algebra.Order.Field.Rat
import Mathlib.Tactic.Linarith
import Mathlib.Tactic.NormNum

/-!
# Market data - Spoof detection

Every poll of the order book looks at the five best levels of each side.  A level with more than
thirty percent of their volume and a notional of more than ten thousand is watched; one that
disappears within three seconds of its first sighting is taken for a spoof, and the side is
flagged for the next thirty seconds.

Main results:

- Theorem `watched_iff`: the watched levels are those in sight, since their first sighting.
- Theorem `flagged_iff`: the flag is up while a disappearance of that kind is recent.
- Theorem `never_flagged`: polls that are three seconds apart never flag a side.
-/

namespace Karsa
namespace SpoofDetection

/-! ## One side of the book -/

/-- A level of the order book. -/
structure Level where
  price : ℚ
  volume : ℚ
deriving Repr, DecidableEq

/-- `top_5_bids`, `top_5_asks`. -/
def topFive (levels : List Level) : List Level :=
  levels.take 5

/-- `total_bid_vol`, `total_ask_vol`. -/
def totalVolume (levels : List Level) : ℚ :=
  ((topFive levels).map Level.volume).sum

/-- The concentration check of a level. -/
def concentrated (levels : List Level) (level : Level) : Bool :=
  decide (0 < totalVolume levels ∧ 30 / 100 < level.volume / totalVolume levels ∧
    10000 < level.price * level.volume)

/-- `_top_bid_levels`, `spoofing_bid` and `_spoof_expiry_bid` of a symbol, or those of the asks. -/
structure Side where
  topLevels : Dict ℚ ℚ
  spoofing : Bool
  spoofExpiry : ℚ
deriving Repr, DecidableEq

/-- Before the first poll; a missing expiry is read as zero, a missing flag as no. -/
def Side.initial : Side :=
  ⟨[], false, 0⟩

/-- `current_bids`, `current_asks`: a level that was watched keeps its time. -/
def currentLevels (now : ℚ) (prev : Dict ℚ ℚ) (levels : List Level) : Dict ℚ ℚ :=
  (topFive levels).foldl
    (fun current level =>
      if concentrated levels level then
        current.set level.price ((prev.get level.price).getD now)
      else current)
    []

/-- The flag goes down behind its expiry. -/
def Side.resetExpired (now : ℚ) (side : Side) : Side :=
  if side.spoofExpiry < now then { side with spoofing := false } else side

/-- One pass of the loop over the levels that were watched. -/
def Side.checkCancelled (now : ℚ) (current : Dict ℚ ℚ) (side : Side) (prev : ℚ × ℚ) : Side :=
  if prev.1 ∉ current.keys then
    if now - prev.2 < 3 then { side with spoofing := true, spoofExpiry := now + 30 } else side
  else side

/-- The spoof detection of `_fetch_orderbook` on one side. -/
def Side.detect (now : ℚ) (levels : List Level) (side : Side) : Side :=
  let current := currentLevels now side.topLevels levels
  let checked := side.topLevels.foldl (Side.checkCancelled now current) (side.resetExpired now)
  { checked with topLevels := current }

/-! ## One poll -/

/-- What a poll shows of a side. -/
structure Poll where
  now : ℚ
  levels : List Level
deriving Repr, DecidableEq

/-- The poll shows a concentrated level at the price. -/
def Poll.shows (p : Poll) (price : ℚ) : Bool :=
  (topFive p.levels).any fun level =>
    decide (level.price = price) && concentrated p.levels level

/-- The levels of a poll under their times. -/
theorem get_currentLevels (prev : Dict ℚ ℚ) (p : Poll) (price : ℚ) :
    (currentLevels p.now prev p.levels).get price =
      if p.shows price then some ((prev.get price).getD p.now) else none := by
  have hfold : ∀ (tops : List Level) (current : Dict ℚ ℚ),
      (tops.foldl
        (fun current level =>
          if concentrated p.levels level then
            current.set level.price ((prev.get level.price).getD p.now)
          else current)
        current).get price =
        if tops.any fun level => decide (level.price = price) && concentrated p.levels level then
          some ((prev.get price).getD p.now)
        else current.get price := by
    intro tops
    induction tops with
    | nil => simp
    | cons level rest ih =>
        intro current
        rw [List.foldl_cons, ih, List.any_cons]
        by_cases hconcentrated : concentrated p.levels level = true
        · by_cases hprice : level.price = price
          · simp [hconcentrated, hprice]
          · simp [hconcentrated, hprice, Dict.get_set_of_ne (Ne.symm hprice)]
        · simp [hconcentrated]
  exact hfold (topFive p.levels) []

/-- A watched level that is gone too soon. -/
def cancelledEarly (now : ℚ) (current : Dict ℚ ℚ) (prev : ℚ × ℚ) : Bool :=
  decide (prev.1 ∉ current.keys ∧ now - prev.2 < 3)

/-- One pass raises the flag for a level that is gone too soon. -/
theorem checkCancelled_eq (now : ℚ) (current : Dict ℚ ℚ) (side : Side) (prev : ℚ × ℚ) :
    side.checkCancelled now current prev =
      if cancelledEarly now current prev then
        { side with spoofing := true, spoofExpiry := now + 30 }
      else side := by
  unfold Side.checkCancelled cancelledEarly
  by_cases hgone : prev.1 ∈ current.keys
  · simp [hgone]
  · simp [hgone]

/-- The loop over the levels that were watched. -/
theorem foldl_checkCancelled (now : ℚ) (current : Dict ℚ ℚ) (prev : List (ℚ × ℚ)) (side : Side) :
    prev.foldl (Side.checkCancelled now current) side =
      if prev.any (cancelledEarly now current) then
        { side with spoofing := true, spoofExpiry := now + 30 }
      else side := by
  induction prev generalizing side with
  | nil => simp
  | cons item rest ih =>
      rw [List.foldl_cons, ih, checkCancelled_eq, List.any_cons]
      cases cancelledEarly now current item with
      | true => simp
      | false => simp only [Bool.false_or, Bool.false_eq_true, if_false]

/-- The alarm in the state of a side. -/
def Side.alarm (side : Side) : Alarm ℚ :=
  ⟨side.spoofing, side.spoofExpiry⟩

/-- What a poll does to the flag of a side. -/
theorem alarm_detect (p : Poll) (side : Side) :
    (side.detect p.now p.levels).alarm =
      side.alarm.look 30 p.now
        (side.topLevels.any
          (cancelledEarly p.now (currentLevels p.now side.topLevels p.levels))) := by
  rw [Side.detect, foldl_checkCancelled]
  unfold Side.resetExpired Alarm.look Side.alarm
  split_ifs <;> rfl

/-! ## Runs of polls -/

/-- A side behind a run of polls. -/
def sideAfter (polls : List Poll) : Side :=
  run (fun side p => side.detect p.now p.levels) Side.initial polls

theorem sideAfter_concat (polls : List Poll) (p : Poll) :
    sideAfter (polls ++ [p]) = (sideAfter polls).detect p.now p.levels :=
  run_concat _ _ polls p

/-- The watched levels are those in sight, since their first sighting. -/
theorem get_topLevels (polls : List Poll) (price : ℚ) :
    (sideAfter polls).topLevels.get price = since Poll.now Poll.shows polls price := by
  induction polls using List.reverseRecOn with
  | nil => rw [since_nil]; rfl
  | append_singleton polls p ih =>
      rw [sideAfter_concat, since_concat, ← ih]
      exact get_currentLevels (sideAfter polls).topLevels p price

/-- No price is watched twice. -/
theorem nodup_keys_topLevels (polls : List Poll) : (sideAfter polls).topLevels.keys.Nodup := by
  induction polls using List.reverseRecOn with
  | nil => exact List.nodup_nil
  | append_singleton polls p _ =>
      rw [sideAfter_concat]
      refine Dict.nodup_keys_foldl (fun current level hcurrent => ?_) (topFive p.levels)
        List.nodup_nil
      split_ifs
      · exact Dict.nodup_keys_set hcurrent _ _
      · exact hcurrent

/-- The poll is the first without a price that was in sight for less than three seconds. -/
def Cancels (before : List Poll) (p : Poll) : Prop :=
  ∃ price t, since Poll.now Poll.shows before price = some t ∧ p.shows price = false ∧
    p.now - t < 3

/-- The loop finds a level that is gone too soon if there is one. -/
theorem any_cancelledEarly_iff (before : List Poll) (p : Poll) :
    ((sideAfter before).topLevels.any
      (cancelledEarly p.now (currentLevels p.now (sideAfter before).topLevels p.levels))) = true ↔
      Cancels before p := by
  have hgone : ∀ price, price ∉ (currentLevels p.now (sideAfter before).topLevels p.levels).keys ↔
      p.shows price = false := by
    intro price
    have hget := get_currentLevels (sideAfter before).topLevels p price
    cases hshows : p.shows price with
    | true =>
        rw [hshows, if_pos rfl] at hget
        simpa using Dict.mem_keys_of_get hget
    | false =>
        rw [hshows, if_neg (by simp)] at hget
        refine iff_of_true (fun hmem => ?_) rfl
        rcases Dict.exists_get_of_mem_keys hmem with ⟨t, ht⟩
        rw [hget] at ht
        cases ht
  rw [List.any_eq_true]
  constructor
  · rintro ⟨⟨price, t⟩, hmem, hearly⟩
    rcases of_decide_eq_true hearly with ⟨hkeys, hsoon⟩
    refine ⟨price, t, ?_, (hgone price).mp hkeys, hsoon⟩
    rw [← get_topLevels]
    exact Dict.get_of_mem (nodup_keys_topLevels before) hmem
  · rintro ⟨price, t, hsince, hshows, hsoon⟩
    rw [← get_topLevels] at hsince
    exact ⟨(price, t), Dict.mem_of_get hsince, decide_eq_true ⟨(hgone price).mpr hshows, hsoon⟩⟩

/-- The flag is up while a disappearance of that kind is recent. -/
theorem spoofing_iff {polls : List Poll} {last : Poll}
    (hclock : (polls ++ [last]).Pairwise fun p q => p.now ≤ q.now) :
    (sideAfter (polls ++ [last])).spoofing = true ↔
      ∃ d, EventAt Poll.now Cancels (polls ++ [last]) d ∧ last.now ≤ d + 30 := by
  refine Alarm.up_iff (fun polls => (sideAfter polls).alarm) (by norm_num) rfl ?_ hclock
  intro before p
  refine ⟨_, any_cancelledEarly_iff before p, ?_⟩
  rw [sideAfter_concat]
  exact alarm_detect p (sideAfter before)

/-- The polls at the end of the run, from the one at the given time on, all show the price, and
the one before them does not. -/
def WatchedSince (polls : List Poll) (price t : ℚ) : Prop :=
  ∃ before first stretch, polls = before ++ first :: stretch ∧
    (∀ p ∈ first :: stretch, p.shows price = true) ∧
    (∀ p, before.getLast? = some p → p.shows price = false) ∧ first.now = t

/-- Behind every run of polls the watched levels are those that the newest polls show without a
gap, under the time of the first of these polls. -/
theorem watched_iff (polls : List Poll) (price t : ℚ) :
    (sideAfter polls).topLevels.get price = some t ↔ WatchedSince polls price t := by
  rw [get_topLevels]
  exact since_eq_some_iff

/-- A side is flagged behind a poll if some poll, thirty seconds ago at most, was the first
without a level that had been watched for less than three seconds. -/
theorem flagged_iff {polls : List Poll} {last : Poll}
    (hclock : (polls ++ [last]).Pairwise fun p q => p.now ≤ q.now) :
    (sideAfter (polls ++ [last])).spoofing = true ↔
      ∃ before p after price t, polls ++ [last] = before ++ p :: after ∧
        WatchedSince before price t ∧ p.shows price = false ∧ p.now - t < 3 ∧
        last.now ≤ p.now + 30 := by
  rw [spoofing_iff hclock]
  constructor
  · rintro ⟨d, ⟨before, p, after, hsplit, ⟨price, t, hsince, hgone, hsoon⟩, rfl⟩, hrecent⟩
    exact ⟨before, p, after, price, t, hsplit, since_eq_some_iff.mp hsince, hgone, hsoon, hrecent⟩
  · rintro ⟨before, p, after, price, t, hsplit, hwatched, hgone, hsoon, hrecent⟩
    have hcancels : Cancels before p := ⟨price, t, since_eq_some_iff.mpr hwatched, hgone, hsoon⟩
    exact ⟨p.now, ⟨before, p, after, hsplit, hcancels, rfl⟩, hrecent⟩

/-- A wall that is shown once and gone two seconds later flags its side for half a minute. -/
theorem flagged_iff_wall :
    (sideAfter ([⟨100, [⟨50, 1000⟩]⟩, ⟨102, [⟨49, 1⟩]⟩] ++ [⟨132, []⟩])).spoofing = true :=
  (flagged_iff (by decide +kernel)).mpr
    ⟨[⟨100, [⟨50, 1000⟩]⟩], ⟨102, [⟨49, 1⟩]⟩, [⟨132, []⟩], 50, 100, rfl,
      ⟨[], ⟨100, [⟨50, 1000⟩]⟩, [], rfl, by decide +kernel, by simp, rfl⟩,
      by decide +kernel, by norm_num, by norm_num⟩

/-! ## The polling loop -/

/-- With polls three seconds apart no level is gone too soon. -/
theorem not_cancels {before : List Poll} {p : Poll}
    (happart : (before ++ [p]).Pairwise fun p q => p.now + 3 ≤ q.now) : ¬ Cancels before p := by
  rintro ⟨price, t, hsince, -, hsoon⟩
  rcases since_eq_some_iff.mp hsince with ⟨older, first, stretch, hbefore, -, -, rfl⟩
  have hfirst : first ∈ before := by
    rw [hbefore]
    exact List.mem_append_right _ List.mem_cons_self
  have hlong := (List.pairwise_append.mp happart).2.2 first hfirst p List.mem_cons_self
  linarith

/-- A run of such polls flags nothing. -/
theorem spoofing_of_apart {polls : List Poll}
    (happart : polls.Pairwise fun p q => p.now + 3 ≤ q.now) :
    (sideAfter polls).spoofing = false := by
  rcases List.eq_nil_or_concat polls with rfl | ⟨init, last, rfl⟩
  · rfl
  · rw [List.concat_eq_append] at happart ⊢
    have hclock : (init ++ [last]).Pairwise fun p q => p.now ≤ q.now :=
      happart.imp fun h => by linarith
    rw [Bool.eq_false_iff, Ne, spoofing_iff hclock]
    rintro ⟨d, ⟨before, p, after, hsplit, hcancels, -⟩, -⟩
    refine not_cancels (happart.sublist ?_) hcancels
    rw [hsplit]
    simp

/-- A pass of the loop of `start`: when the side was read, what was read if the book was fetched,
and whether the pass ended in a transient Redis error. -/
structure Pass where
  now : ℚ
  levels : Option (List Level)
  transient : Bool
deriving Repr, DecidableEq

/-- How long the loop sleeps behind a pass. -/
def Pass.pause (interval : ℚ) (pass : Pass) : ℚ :=
  if pass.transient then 3 else interval

/-- The polls of a run of the loop. -/
def pollsOf (passes : List Pass) : List Poll :=
  passes.filterMap fun pass => pass.levels.map (Poll.mk pass.now)

/-- A loop that sleeps for three seconds or more between its passes, as it does at the default
interval of thirty seconds, never flags a side, whatever the books show. -/
theorem never_flagged {interval : ℚ} (hinterval : 3 ≤ interval) {passes : List Pass}
    (hsleep : passes.IsChain fun a b => a.now + a.pause interval ≤ b.now) :
    (sideAfter (pollsOf passes)).spoofing = false := by
  have hpause : ∀ pass : Pass, 3 ≤ pass.pause interval := by
    intro pass
    unfold Pass.pause
    split_ifs
    · exact le_refl 3
    · exact hinterval
  have hchain : passes.IsChain fun a b => a.now + 3 ≤ b.now :=
    hsleep.imp fun a b h => by linarith [hpause a]
  have htrans : IsTrans Pass fun a b => a.now + 3 ≤ b.now :=
    ⟨fun a b c hab hbc => by linarith⟩
  apply spoofing_of_apart
  rw [pollsOf, List.pairwise_filterMap]
  refine hchain.pairwise.imp fun {a b} hab p hp q hq => ?_
  rcases Option.map_eq_some_iff.mp hp with ⟨levels, -, rfl⟩
  rcases Option.map_eq_some_iff.mp hq with ⟨levels', -, rfl⟩
  exact hab

/-- The wall from above, polled at the default interval. -/
theorem never_flagged_wall :
    (sideAfter (pollsOf [⟨100, some [⟨50, 1000⟩], false⟩, ⟨130, some [⟨49, 1⟩], false⟩])).spoofing =
      false :=
  have hinterval : (3 : ℚ) ≤ 30 := by norm_num
  never_flagged hinterval (by decide +kernel)

end SpoofDetection
end Karsa
