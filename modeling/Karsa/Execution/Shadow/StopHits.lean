import Karsa.Execution.Shadow.Monitor

/-!
# Shadow trading - Stop hits are real

The monitor closes a position at its stop when the worst price seen has reached it.  The
worst price is kept over the whole life of the position while the stop moves towards the
price, so it may lie behind a stop that was set long after it was seen.  A run is watched
with the list of prices observed since the present stop was set.

Main results:

- Theorem `Backing.rule`: a rule that moves the stop clear of the past keeps every stop
  backed by a price observed under it.
- Theorem `check_backed`, `watch_backed`: one check.
- Theorem `slHits_real`: every stop hit of a run has a price that reached the stop while it
  was the stop of the position.
-/

namespace Karsa
namespace Shadow

/-! ## Watched runs -/

/-- The stop of a record. -/
def stopOf (record : ShadowRecord) : ℚ :=
  record.virtualSl.getD 0

/-- The monitor with the prices observed since the present stop was set and, for every stop
hit, its price and the prices observed while that was the stop. -/
structure Watch where
  state : MonitorState
  held : List ℚ
  hits : List (ℚ × List ℚ)
deriving Repr, DecidableEq

/-- Prices observed while the given stop was the position's, this check included. -/
def Watch.observed (w : Watch) (a : CheckAnswers) (stop : ℚ) : List ℚ :=
  if w.state.stored.map stopOf = some stop then a.mid.toList ++ w.held else a.mid.toList

/-- One check with its observations. -/
def watch (settings : ShadowSettings) (w : Watch) (a : CheckAnswers) : Watch :=
  let s := check settings w.state a
  { state := s
    held := match s.stored with
      | none => []
      | some record => w.observed a (stopOf record)
    hits := match s.closed with
      | none => w.hits
      | some close =>
          if close.reason = .slHit then
            w.hits ++ [(close.exitPrice, w.observed a close.exitPrice)]
          else w.hits }

/-- The watch over a record just saved. -/
def Watch.ofRecord (record : ShadowRecord) : Watch where
  state := .ofRecord record
  held := []
  hits := []

/-! ## Stops that are moved -/

/-- A stop that is moved is not behind the worst price seen, unless the present price has
reached it too. -/
def MovesClear (loc : CheckLocals) (rule : CheckRule) (s : MonitorState) : Prop :=
  ∀ stop, proposedStop loc rule s = some stop → 0 < stop →
    crossed s.pos.side loc.worst stop = true → crossed s.pos.side loc.mid stop = true

instance (loc : CheckLocals) (rule : CheckRule) : DecidablePred (MovesClear loc rule) :=
  fun s => match hstop : proposedStop loc rule s with
    | none => isTrue (by rintro stop hnone; rw [hstop] at hnone; cases hnone)
    | some stop => decidable_of_iff (0 < stop → crossed s.pos.side loc.worst stop = true →
        crossed s.pos.side loc.mid stop = true) (by simp [MovesClear, hstop])

/-- Every rule the check comes to moves the stop clear of the past. -/
def CheckClear (settings : ShadowSettings) (w : Watch) (a : CheckAnswers) : Prop :=
  ∀ record, w.state.stored = some record → ∀ mid, a.mid = some mid →
    Flow.Met (CheckRule.block settings a (locals record mid)) (MovesClear (locals record mid))
      checkOrder (observe mid (startCheck record w.state))

instance (settings : ShadowSettings) (w : Watch) : DecidablePred (CheckClear settings w) :=
  fun a => match hrecord : w.state.stored, hmid : a.mid with
    | some record, some mid => decidable_of_iff
        (Flow.Met (CheckRule.block settings a (locals record mid))
          (MovesClear (locals record mid)) checkOrder (observe mid (startCheck record w.state)))
        (by simp [CheckClear, hrecord, hmid])
    | none, _ => isTrue (by simp [CheckClear, hrecord])
    | some _, none => isTrue (by simp [CheckClear, hmid])

/-! ## Backed stops -/

/-- Where the worst price has reached the stop, so has one of the prices observed under it. -/
def Backed (side : Side) (observed : ℚ → List ℚ) (worst stop : ℚ) : Prop :=
  0 < stop → crossed side worst stop = true → ∃ mid ∈ observed stop, crossed side mid stop = true

/-- The stops of a check are backed: the local one, the one in memory and the one stored,
and a stop hit was. -/
structure Backing (side : Side) (observed : ℚ → List ℚ) (worst : ℚ) (s : MonitorState) :
    Prop where
  sameSide : s.pos.side = side
  noted : s.pos.worstPriceSeen = some worst
  localStop : Backed side observed worst s.virtualSl
  posStop : Backed side observed worst (stopOf s.pos)
  stored : ∀ record, s.stored = some record →
    ∀ seen, record.worstPriceSeen = some seen → Backed side observed seen (stopOf record)
  hit : ∀ close, s.closed = some close → close.reason = .slHit →
    ∃ mid ∈ observed close.exitPrice, crossed side mid close.exitPrice = true

namespace Backing

variable {side : Side} {observed : ℚ → List ℚ} {worst : ℚ} {s s' : MonitorState}

/-- Book-keeping changes nothing the backing depends on. -/
theorem bookkept (h : Backing side observed worst s) (hbook : Bookkept s s') :
    Backing side observed worst s' where
  sameSide := (congrArg ShadowRecord.side hbook.entry).trans h.sameSide
  noted := hbook.worst.trans h.noted
  localStop := by
    rw [hbook.localStop]
    exact h.localStop
  posStop := by
    rw [stopOf, hbook.stop]
    exact h.posStop
  stored record hrecord := h.stored record (hbook.stored.symm.trans hrecord)
  hit close hclose := h.hit close (hbook.closed.symm.trans hclose)

theorem persist (h : Backing side observed worst s) : Backing side observed worst s.persist where
  sameSide := h.sameSide
  noted := h.noted
  localStop := h.localStop
  posStop := h.posStop
  stored record hrecord seen hseen := by
    obtain rfl := Option.some.inj hrecord
    have hsame : worst = seen := Option.some.inj (h.noted.symm.trans hseen)
    rw [← hsame]
    exact h.posStop
  hit := h.hit

/-- A close for another reason. -/
theorem close (h : Backing side observed worst s) (settings : ShadowSettings) (exitPrice : ℚ)
    {reason : ExitReason} (hreason : reason ≠ .slHit) :
    Backing side observed worst (closeShadowPosition settings exitPrice reason s) where
  sameSide := h.sameSide
  noted := h.noted
  localStop := h.localStop
  posStop := h.posStop
  stored record hrecord := by cases hrecord
  hit close hclose hhit := by
    obtain rfl := Option.some.inj hclose
    exact absurd hhit hreason

/-- The stop of the dictionary is moved clear of the past. -/
theorem moveStop (h : Backing side observed worst s) {stop : ℚ}
    (hstop : Backed side observed worst stop) : Backing side observed worst (s.moveStop stop) where
  sameSide := h.sameSide
  noted := h.noted
  localStop := hstop
  posStop := hstop
  stored := h.stored
  hit := h.hit

end Backing

/-- A stop that is moved clear of the past is backed by the present price. -/
theorem MovesClear.backed {loc : CheckLocals} {rule : CheckRule} {s : MonitorState} {side : Side}
    {observed : ℚ → List ℚ} (hclear : MovesClear loc rule s) (hside : s.pos.side = side)
    (hmid : ∀ stop, loc.mid ∈ observed stop) {stop : ℚ}
    (hproposed : proposedStop loc rule s = some stop) : Backed side observed loc.worst stop := by
  intro hpos hcrossed
  rw [← hside] at hcrossed ⊢
  exact ⟨loc.mid, hmid stop, hclear stop hproposed hpos hcrossed⟩

/-- A rule that moves the stop clear of the past keeps the stops backed. -/
theorem Backing.rule {side : Side} {observed : ℚ → List ℚ} {loc : CheckLocals}
    {s : MonitorState} (settings : ShadowSettings) (a : CheckAnswers)
    (hmid : ∀ stop, loc.mid ∈ observed stop) (r : CheckRule)
    (h : Backing side observed loc.worst s) (hclear : MovesClear loc r s) :
    Backing side observed loc.worst (r.block settings a loc s).state := by
  have heffect := ruleEffect settings a loc r s
  generalize (r.block settings a loc s).state = s' at heffect ⊢
  cases heffect with
  | kept hbook => exact h.bookkept hbook
  | written hbook => exact (h.bookkept hbook).persist
  | moved hstop hbook =>
      exact (h.moveStop (hclear.backed h.sameSide hmid hstop)).bookkept hbook
  | capped hstop =>
      have hbacked := hclear.backed h.sameSide hmid hstop
      apply Backing.persist
      exact ⟨h.sameSide, h.noted, h.localStop, hbacked, h.stored, h.hit⟩
  | closed hreason hbook => exact (h.close settings _ hreason).bookkept hbook
  | hit hstop hcrossed =>
      have hreal := h.localStop hstop (h.sameSide ▸ hcrossed)
      refine ⟨h.sameSide, h.noted, h.localStop, h.posStop, by rintro record ⟨⟩, ?_⟩
      rintro close hclose -
      obtain rfl := Option.some.inj hclose
      exact hreal

/-! ## One check -/

/-- The worst price is the present one or the one noted before. -/
theorem worstOf_crossed {record : ShadowRecord} {mid stop : ℚ}
    (h : crossed record.side (worstOf record mid) stop = true) :
    crossed record.side mid stop = true ∨
      ∃ seen, record.worstPriceSeen = some seen ∧ crossed record.side seen stop = true := by
  have hworst : worstOf record mid = mid ∨ record.worstPriceSeen = some (worstOf record mid) := by
    unfold worstOf
    cases record.worstPriceSeen with
    | none => cases record.side <;> simp
    | some seen => cases record.side <;> simp only [Option.getD_some] <;> split_ifs <;> simp
  rcases hworst with hmid | hseen
  · rw [hmid] at h
    exact Or.inl h
  · exact Or.inr ⟨_, hseen, h⟩

/-- The watch over a position with this entry: its stop and all stop hits are backed. -/
structure Watched (entry : ShadowRecord) (w : Watch) : Prop where
  kept : EntryKept entry w.state
  stop : ∀ record, w.state.stored = some record → ∀ seen, record.worstPriceSeen = some seen →
    Backed entry.side (fun _ => w.held) seen (stopOf record)
  hits : ∀ hit ∈ w.hits, ∃ mid ∈ hit.2, crossed entry.side mid hit.1 = true

section OneCheck

variable {entry : ShadowRecord} {w : Watch}

/-- What a check starts from is backed by what was observed so far and the present price. -/
theorem Watched.backing (h : Watched entry w) {record : ShadowRecord}
    (hrecord : w.state.stored = some record) {a : CheckAnswers} {mid : ℚ}
    (hmid : a.mid = some mid) :
    Backing entry.side (w.observed a) (worstOf record mid)
      (observe mid (startCheck record w.state)) := by
  have hside : record.entryPart.side = entry.side :=
    congrArg ShadowRecord.side (h.kept.stored record hrecord)
  change record.side = entry.side at hside
  have hobserved : w.observed a (stopOf record) = mid :: w.held := by
    unfold Watch.observed
    rw [hrecord, hmid, Option.map_some, if_pos rfl]
    rfl
  have hbacked : Backed entry.side (w.observed a) (worstOf record mid) (stopOf record) := by
    intro hpos hcrossed
    rw [hobserved]
    rw [← hside] at hcrossed
    rcases worstOf_crossed hcrossed with hpresent | ⟨seen, hseen, hpast⟩
    · exact ⟨mid, List.mem_cons_self, hside ▸ hpresent⟩
    · rcases h.stop record hrecord seen hseen hpos (hside ▸ hpast) with ⟨m, hm, hcross⟩
      exact ⟨m, List.mem_cons_of_mem mid hm, hcross⟩
  refine ⟨hside, rfl, hbacked, hbacked, ?_, by rintro close ⟨⟩⟩
  rintro stored hstored seen hseen
  have hstored' : (some record).map (updatePeak mid) = some stored := by
    rw [← hrecord]
    exact hstored
  obtain rfl := Option.some.inj hstored'
  have hsame : (updatePeak mid record).worstPriceSeen = record.worstPriceSeen ∧
      stopOf (updatePeak mid record) = stopOf record := by
    unfold updatePeak
    dsimp only
    split_ifs <;> exact ⟨rfl, rfl⟩
  rw [hsame.2]
  intro hpos hcrossed
  rcases h.stop record hrecord seen (hsame.1 ▸ hseen) hpos hcrossed with ⟨m, hm, hcross⟩
  rw [hobserved]
  exact ⟨m, List.mem_cons_of_mem mid hm, hcross⟩

/-- A check that moves the stop clear of the past leaves a backed stop, and a stop hit of it
is real. -/
theorem check_backed (settings : ShadowSettings) (w : Watch) (a : CheckAnswers)
    (hopen : entry.status ≠ some "PENDING_VIRTUAL_FILL".toList) (h : Watched entry w)
    (hclear : CheckClear settings w a) :
    (∀ record, (check settings w.state a).stored = some record →
        ∀ seen, record.worstPriceSeen = some seen →
          Backed entry.side (w.observed a) seen (stopOf record)) ∧
      ∀ close, (check settings w.state a).closed = some close → close.reason = .slHit →
        ∃ mid ∈ w.observed a close.exitPrice, crossed entry.side mid close.exitPrice = true := by
  have hmem : ∀ mid, a.mid = some mid → ∀ stop, mid ∈ w.observed a stop := by
    intro mid hmid stop
    unfold Watch.observed
    rw [hmid]
    split_ifs <;> simp
  cases hstored : w.state.stored with
  | none =>
      simp only [check, hstored]
      exact ⟨by rintro record ⟨⟩, by rintro close ⟨⟩⟩
  | some record =>
      rcases h.kept.check_cases hopen hstored settings a with hsame | ⟨mid, hmid, hrules⟩
      · rw [hsame]
        refine ⟨?_, by rintro close ⟨⟩⟩
        intro record' hrecord' seen hseen hpos hcrossed
        rcases h.stop record' hrecord' seen hseen hpos hcrossed with ⟨m, hm, hcross⟩
        have hstop : w.state.stored.map stopOf = some (stopOf record') := by
          rw [show w.state.stored = some record' from hrecord', Option.map_some]
        refine ⟨m, ?_, hcross⟩
        rw [Watch.observed, if_pos hstop]
        exact List.mem_append_right _ hm
      · have hbacking := (hclear record hstored mid hmid).ends
          (fun r s hs hr => Flow.ends_of_state
            (hs.rule settings a (hmem mid hmid) r hr)) (h.backing hstored hmid)
        have hfinal := hbacking.state fun _ hs => hs
        rw [hrules]
        exact ⟨hfinal.stored, hfinal.hit⟩

/-- A check that moves the stop clear of the past keeps the watch. -/
theorem watch_backed (settings : ShadowSettings) (w : Watch) (a : CheckAnswers)
    (hopen : entry.status ≠ some "PENDING_VIRTUAL_FILL".toList) (h : Watched entry w)
    (hclear : CheckClear settings w a) : Watched entry (watch settings w a) := by
  rcases check_backed settings w a hopen h hclear with ⟨hstop, hreal⟩
  refine ⟨h.kept.check hopen settings a, ?_, ?_⟩
  · intro record hrecord seen hseen hpos hcrossed
    rcases hstop record hrecord seen hseen hpos hcrossed with ⟨m, hm, hcross⟩
    refine ⟨m, ?_, hcross⟩
    have hrecord' : (check settings w.state a).stored = some record := hrecord
    simpa only [watch, hrecord'] using hm
  · intro hit hhit
    cases hclosed : (check settings w.state a).closed with
    | none =>
        simp only [watch, hclosed] at hhit
        exact h.hits hit hhit
    | some close =>
        simp only [watch, hclosed] at hhit
        split_ifs at hhit with hreason
        · rcases List.mem_append.mp hhit with hold | hnew
          · exact h.hits hit hold
          · obtain rfl := List.mem_singleton.mp hnew
            exact hreal close hclosed hreason
        · exact h.hits hit hhit

end OneCheck

/-! ## Runs -/

/-- In every run over a saved position whose checks move the stop clear of the past, each
stop hit has a price that reached the stop while it was the stop of the position. -/
theorem slHits_real (settings : ShadowSettings) (symbol : Text) (side : Side)
    (entryPrice amount : ℚ) (atr : Option ℚ) (regime : Text)
    (riskProfile : Option (Dict Text ProfileValue)) (virtualSl virtualTp : Option ℚ) (now : ℚ)
    (checks : List CheckAnswers)
    (hadmits : Admits (watch settings) (CheckClear settings)
      (.ofRecord (save symbol side entryPrice amount atr regime riskProfile virtualSl virtualTp
        now)) checks) :
    ∀ hit ∈ (run (watch settings) (.ofRecord (save symbol side entryPrice amount atr regime
      riskProfile virtualSl virtualTp now)) checks).hits,
        ∃ mid ∈ hit.2, crossed side mid hit.1 = true := by
  have hinit : Watched
      (save symbol side entryPrice amount atr regime riskProfile virtualSl virtualTp now).entryPart
      (.ofRecord (save symbol side entryPrice amount atr regime riskProfile virtualSl virtualTp
        now)) := by
    refine ⟨⟨rfl, ?_⟩, ?_, by rintro hit ⟨⟩⟩
    · rintro record hrecord
      obtain rfl := Option.some.inj hrecord
      rfl
    · rintro record hrecord seen hseen
      obtain rfl := Option.some.inj hrecord
      cases hseen
  have hfinal := invariant_run
    (fun w a hw hclear => watch_backed settings w a (by rintro ⟨⟩) hw hclear) hinit hadmits
  exact hfinal.hits

/-- The price drops to 97.9, below the stop at 98. -/
theorem slHits_real_on_drop :
    (run (watch defaultSettings) (.ofRecord (save "BTC/USDT".toList .LONG 100 1 none
      "RANGE".toList (some [("sl_pct".toList, .decimal (2 / 100))]) (some 98) none 0))
        [checkAt 99, checkAt (979 / 10)]).hits ≠ [] ∧
    ∀ hit ∈ (run (watch defaultSettings) (.ofRecord (save "BTC/USDT".toList .LONG 100 1 none
      "RANGE".toList (some [("sl_pct".toList, .decimal (2 / 100))]) (some 98) none 0))
        [checkAt 99, checkAt (979 / 10)]).hits,
          ∃ mid ∈ hit.2, crossed .LONG mid hit.1 = true := by
  refine ⟨by decide +kernel, ?_⟩
  apply slHits_real
  decide +kernel

/-- At 101 the stop is locked at 100.25, above the 99 seen before, and counts as hit.  The record
has an `sl_pct` in its profile, which the monitor reads and none of the program's writers sets. -/
theorem slHit_at_passed_price :
    ¬ ∀ hit ∈ (run (watch defaultSettings) (.ofRecord (save "BTC/USDT".toList .LONG 100 1 none
      "RANGE".toList (some [("sl_pct".toList, .decimal (2 / 100))]) (some 96) none 0))
        [checkAt 99, checkAt 101]).hits,
          ∃ mid ∈ hit.2, crossed .LONG mid hit.1 = true := by
  decide +kernel

end Shadow
end Karsa
