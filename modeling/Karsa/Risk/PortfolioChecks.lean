import Karsa.Risk.ExposureLimits
import Karsa.Risk.LossBreakers

/-!
# Portfolio risk manager - The checks and their dependencies

Every check of `PortfolioRiskManager.check` catches its own exceptions.  Some of them then
fail, the others pass, and two dependencies turn a failure into an ordinary value before a
check sees it: the wallet becomes a zero balance, a candle request an empty list.

Main results:

- Theorem `correlationTrap_passed_iff`, `breakerCheck_passed_iff`: checks that refuse
  whatever they cannot read.
- Theorem `rollingCorrelation_passed_iff`, `spreadLegs_passed_iff`: checks that pass it.
- Theorem `rollingCorrelation_signal`: the reduction never reaches the signal.
-/

namespace Karsa
namespace Risk

/-! ## Signals and positions -/

/-- What the checks read of a signal. -/
structure RiskSignal where
  symbol : Text
  direction : Text
  entryPrice : ℚ
  amount : ℚ
deriving Repr, DecidableEq

/-- `signal.amount = amount`: the dataclass is frozen, so that every assignment raises. -/
def RiskSignal.assignAmount (_signal : RiskSignal) (_amount : ℚ) : Option RiskSignal :=
  none

/-- An open position with its symbol. -/
structure OpenPosition extends HeldPosition where
  symbol : Text
deriving Repr, DecidableEq

/-- `ANCHOR_SYMBOLS`. -/
def anchorSymbols : List Text := ["BTC/USDT".toList, "ETH/USDT".toList]

/-- `PRM_MAX_SECTOR_POSITIONS`. -/
def maxSectorPositions : Nat := 2

/-- The sector of a symbol that is not classified. -/
def unknownSector : Text := "UNKNOWN".toList

/-- Answer to the read of one Redis key. -/
inductive KeyRead (α : Type) where
  | raised
  | absent
  | malformed
  | value (a : α)
deriving Repr, DecidableEq

/-! ## Counting under reads that may raise -/

section Counting

variable {α : Type*}

/-- Count the elements that satisfy a test; one test that raises ends the loop. -/
def countReads (test : α → Option Bool) : List α → Option Nat
  | [] => some 0
  | x :: rest => do
      let holds ← test x
      let count ← countReads test rest
      return if holds then count + 1 else count

/-- The loop ends with a number exactly when no test raises, and then it counts. -/
theorem countReads_eq_some_iff {test : α → Option Bool} {l : List α} {n : Nat} :
    countReads test l = some n ↔
      (∀ x ∈ l, test x ≠ none) ∧ (l.filter fun x => test x = some true).length = n := by
  induction l generalizing n with
  | nil => simp [countReads]
  | cons x rest ih =>
      simp only [countReads, Option.bind_eq_bind, Option.bind_eq_some_iff, Option.pure_def,
        Option.some.injEq, List.forall_mem_cons]
      constructor
      · rintro ⟨holds, htest, count, hrest, hn⟩
        have hcount := ih.mp hrest
        refine ⟨⟨by simp [htest], hcount.1⟩, ?_⟩
        cases holds with
        | false => simpa [htest, hcount.2] using hn
        | true => simpa [htest, hcount.2] using hn
      · rintro ⟨⟨htest, hrest⟩, hlength⟩
        rcases Option.ne_none_iff_exists'.mp htest with ⟨holds, hholds⟩
        refine ⟨holds, hholds, _, ih.mpr ⟨hrest, rfl⟩, ?_⟩
        cases holds with
        | false => simpa [hholds] using hlength
        | true => simpa [hholds] using hlength

/-- The loop raises exactly when a test does. -/
theorem countReads_eq_none_iff {test : α → Option Bool} {l : List α} :
    countReads test l = none ↔ ∃ x ∈ l, test x = none := by
  rw [← not_iff_not, ← ne_eq, Option.ne_none_iff_exists']
  constructor
  · rintro ⟨n, hn⟩ ⟨x, hx, hraised⟩
    exact (countReads_eq_some_iff.mp hn).1 x hx hraised
  · intro hnone
    refine ⟨_, countReads_eq_some_iff.mpr ⟨fun x hx hraised => hnone ⟨x, hx, hraised⟩, rfl⟩⟩

end Counting

/-! ## Market regime -/

/-- `_check_mtf_regime_alignment`; `none` stands for a missing Redis client. -/
def mtfRegimeAlignment (direction : Text) : Option (KeyRead Text) → CheckOutcome
  | none | some .raised | some .absent | some .malformed => .failed
  | some (.value regime) =>
      if regime = "TREND_BULL".toList ∧ direction = "SHORT".toList then .failed
      else if regime = "TREND_BEAR".toList ∧ direction = "LONG".toList then .failed
      else if regime = "CHOP".toList then .failed
      else .passed

/-- The regime of the market cannot be read or is against the signal. -/
def MarketRefuses (direction : Text) (read : Option (KeyRead Text)) : Prop :=
  ∀ regime, read = some (.value regime) →
    regime = "TREND_BULL".toList ∧ direction = "SHORT".toList ∨
      regime = "TREND_BEAR".toList ∧ direction = "LONG".toList ∨ regime = "CHOP".toList

theorem mtfRegimeAlignment_passed_iff {direction : Text} {read : Option (KeyRead Text)} :
    mtfRegimeAlignment direction read = .passed ↔ ¬ MarketRefuses direction read := by
  unfold MarketRefuses mtfRegimeAlignment
  rcases read with _ | _ | _ | _ | regime
  · simp
  · simp
  · simp
  · simp
  · dsimp only
    split_ifs with hbull hbear hchop
    · simp [hbull]
    · simp [hbear]
    · simp [hchop]
    · simp only [Option.some.injEq, KeyRead.value.injEq, forall_eq', hbull, hbear, hchop,
        or_self, not_false_eq_true]

/-! ## Correlation trap -/

/-- A position with the answer of the sector mapping for it. -/
structure SectorRead where
  position : OpenPosition
  sector : Option Text
deriving Repr, DecidableEq

/-- What the check reads: the sector of the signal and the positions. -/
structure TrapAnswers where
  sector : Option Text
  positions : Option (List SectorRead)
deriving Repr, DecidableEq

/-- Is the position in the sector?  Anchors are not looked up. -/
def inSector (sector : Text) (r : SectorRead) : Option Bool :=
  if r.position.symbol ∈ anchorSymbols then some false
  else r.sector.map fun found => decide (found = sector)

/-- `_check_correlation_trap`. -/
def correlationTrap (s : RiskSignal) (a : TrapAnswers) : CheckOutcome :=
  if s.symbol ∈ anchorSymbols then .passed
  else
    match a.sector with
    | none => .failed
    | some sector =>
        if sector = unknownSector then .passed
        else
          match a.positions.bind (countReads (inSector sector)) with
          | none => .failed
          | some count => if maxSectorPositions ≤ count then .failed else .passed

/-- The signal has a sector of its own, and two positions are in it. -/
def SectorFull (s : RiskSignal) (a : TrapAnswers) : Prop :=
  s.symbol ∉ anchorSymbols ∧ ∃ sector reads, a.sector = some sector ∧ sector ≠ unknownSector ∧
    a.positions = some reads ∧
      maxSectorPositions ≤ (reads.filter fun r => inSector sector r = some true).length

/-- A read the check needs raised. -/
def TrapUnevaluated (s : RiskSignal) (a : TrapAnswers) : Prop :=
  s.symbol ∉ anchorSymbols ∧
    (a.sector = none ∨ ∃ sector, a.sector = some sector ∧ sector ≠ unknownSector ∧
      (a.positions = none ∨
        ∃ reads, a.positions = some reads ∧
          ∃ r ∈ reads, r.position.symbol ∉ anchorSymbols ∧ r.sector = none))

theorem inSector_eq_none_iff {sector : Text} {r : SectorRead} :
    inSector sector r = none ↔ r.position.symbol ∉ anchorSymbols ∧ r.sector = none := by
  unfold inSector
  split_ifs with hanchor <;> simp [hanchor]

/-- The check refuses a full sector and whatever it cannot read. -/
theorem correlationTrap_passed_iff {s : RiskSignal} {a : TrapAnswers} :
    correlationTrap s a = .passed ↔ ¬ (TrapUnevaluated s a ∨ SectorFull s a) := by
  unfold correlationTrap TrapUnevaluated SectorFull
  by_cases hanchor : s.symbol ∈ anchorSymbols
  · simp [hanchor]
  · rw [if_neg hanchor]
    cases a.sector with
    | none => simp [hanchor]
    | some sector =>
        dsimp only
        by_cases hunknown : sector = unknownSector
        · simp [hunknown]
        · rw [if_neg hunknown]
          cases a.positions with
          | none => simp [hanchor, hunknown]
          | some reads =>
              rw [Option.bind_some]
              cases hcount : countReads (inSector sector) reads with
              | none =>
                  rcases countReads_eq_none_iff.mp hcount with ⟨r, hr, hraised⟩
                  have hfailed : ∃ r ∈ reads, r.position.symbol ∉ anchorSymbols ∧ r.sector = none :=
                    ⟨r, hr, inSector_eq_none_iff.mp hraised⟩
                  simp [hanchor, hunknown, hfailed]
              | some count =>
                  have hlength := countReads_eq_some_iff.mp hcount
                  have hread : ¬ ∃ r ∈ reads, r.position.symbol ∉ anchorSymbols ∧
                      r.sector = none := by
                    rintro ⟨r, hr, hraised⟩
                    exact hlength.1 r hr (inSector_eq_none_iff.mpr hraised)
                  simp [hanchor, hunknown, hread, hlength.2]

/-! ## Rolling correlation -/

/-- What numpy computes from close prices: whether their relative changes have no deviation,
and the coefficient of two of them, `none` where it is not a number. -/
structure Statistics where
  flat : List ℚ → Bool
  corrcoef : List ℚ → List ℚ → Option ℚ

/-- One request for candles: the closes in the cache, whether they are young enough, and the
answer of the exchange, `none` when it raised. -/
structure CandleAnswer where
  cached : List ℚ
  fresh : Bool
  exchange : Option (List ℚ)
deriving Repr, DecidableEq

/-- `OHLCVFetcher.fetch`: a failed request returns what the cache holds. -/
def CandleAnswer.fetch (a : CandleAnswer) : List ℚ :=
  if a.fresh then a.cached else a.exchange.getD a.cached

/-- The exchange raised, and the cache is too short to replace it. -/
def CandleAnswer.Missing (a : CandleAnswer) : Prop :=
  a.fresh = false ∧ a.exchange = none ∧ a.cached.length < 10

/-- A position with the answer to the request for its candles. -/
structure CandleRead where
  position : OpenPosition
  candles : CandleAnswer
deriving Repr, DecidableEq

/-- What the check reads when there is a fetcher. -/
structure RollingAnswers where
  positions : Option (List CandleRead)
  candles : CandleAnswer
deriving Repr, DecidableEq

/-- `candles[-25:]`. -/
def lastCloses (candles : List ℚ) : List ℚ :=
  candles.drop (candles.length - 25)

/-- Another position of the side of the signal. -/
def SameSide (s : RiskSignal) (p : OpenPosition) : Prop :=
  p.symbol ≠ [] ∧ p.symbol ≠ s.symbol ∧ p.side.word = s.direction

instance (s : RiskSignal) (p : OpenPosition) : Decidable (SameSide s p) :=
  inferInstanceAs (Decidable (_ ∧ _ ∧ _))

/-- One pass of the loop: does the position count as highly correlated? -/
def isCorrelated (np : Statistics) (s : RiskSignal) (closes : List ℚ) (r : CandleRead) : Bool :=
  if ¬ SameSide s r.position then false
  else
    let candles := r.candles.fetch
    if candles.length < 10 then false
    else
      let others := lastCloses candles
      let minLen := min closes.length others.length
      if minLen < 5 then false
      else if np.flat (others.take minLen) then false
      else (np.corrcoef (closes.take minLen) (others.take minLen)).any fun corr => 4 / 5 < corr

/-- `high_corr_count`; zero where the check returns before its loop. -/
def highCorrCount (np : Statistics) (s : RiskSignal) (a : RollingAnswers) : Option Nat :=
  a.positions.map fun reads =>
    let candles := a.candles.fetch
    if reads = [] ∨ candles.length < 10 ∨ np.flat (lastCloses candles) = true then 0
    else reads.countP (isCorrelated np s (lastCloses candles))

/-- `_check_rolling_correlation` with the signal it leaves; `none` stands for a missing
fetcher. -/
def rollingCorrelation (np : Statistics) (s : RiskSignal) (a : Option RollingAnswers) :
    CheckOutcome × RiskSignal :=
  match a with
  | none => (.passed, s)
  | some answers =>
      if s.symbol = [] then (.passed, s)
      else
        match highCorrCount np s answers with
        | none => (.passed, s)
        | some count =>
            if 2 ≤ count then (.failed, s)
            else if count = 1 ∧ 0 < s.amount then
              (.passed, (s.assignAmount (s.amount * (1 / 2))).getD s)
            else (.passed, s)

/-- The check leaves the signal as it is. -/
theorem rollingCorrelation_signal (np : Statistics) (s : RiskSignal)
    (a : Option RollingAnswers) : (rollingCorrelation np s a).2 = s := by
  unfold rollingCorrelation
  cases a with
  | none => rfl
  | some answers =>
      dsimp only
      split_ifs
      · rfl
      · cases highCorrCount np s answers with
        | none => rfl
        | some count =>
            dsimp only
            split_ifs
            · rfl
            · rfl
            · rfl

/-- Two open positions of its side move with the signal. -/
def HighlyCorrelated (np : Statistics) (s : RiskSignal) (a : Option RollingAnswers) : Prop :=
  s.symbol ≠ [] ∧ ∃ answers count, a = some answers ∧
    highCorrCount np s answers = some count ∧ 2 ≤ count

/-- A read the check needs failed. -/
def RollingUnevaluated (np : Statistics) (s : RiskSignal) (a : Option RollingAnswers) : Prop :=
  s.symbol ≠ [] ∧ ∃ answers, a = some answers ∧
    (answers.positions = none ∨
      ∃ reads, answers.positions = some reads ∧ reads ≠ [] ∧
        (answers.candles.Missing ∨
          (10 ≤ answers.candles.fetch.length ∧ np.flat (lastCloses answers.candles.fetch) = false ∧
            ∃ r ∈ reads, SameSide s r.position ∧ r.candles.Missing)))

/-- The check refuses nothing but two correlated positions. -/
theorem rollingCorrelation_passed_iff {np : Statistics} {s : RiskSignal}
    {a : Option RollingAnswers} :
    (rollingCorrelation np s a).1 = .passed ↔ ¬ HighlyCorrelated np s a := by
  unfold rollingCorrelation HighlyCorrelated
  cases a with
  | none => simp
  | some answers =>
      dsimp only
      by_cases hsymbol : s.symbol = []
      · simp [hsymbol]
      · rw [if_neg hsymbol]
        cases hcount : highCorrCount np s answers with
        | none => simp [hcount]
        | some count =>
            dsimp only
            split_ifs with htwo hone
            · simp [hsymbol, hcount, htwo]
            · simp [hcount, htwo]
            · simp [hcount, htwo]

/-! ## Spread legs -/

/-- A position with the answers of the sector mapping for it and for the signal. -/
structure LegRead where
  position : OpenPosition
  sector : Option Text
  signalSector : Option Text
deriving Repr, DecidableEq

/-- Another position of the opposite side that is no anchor. -/
def OppositeSide (s : RiskSignal) (p : OpenPosition) : Prop :=
  p.symbol ≠ s.symbol ∧ p.symbol ∉ anchorSymbols ∧ p.side.word ≠ s.direction

instance (s : RiskSignal) (p : OpenPosition) : Decidable (OppositeSide s p) :=
  inferInstanceAs (Decidable (_ ∧ _ ∧ _))

/-- Is the position a leg of a spread with the signal? -/
def isLeg (s : RiskSignal) (r : LegRead) : Option Bool :=
  if OppositeSide s r.position then do
    let sector ← r.sector
    let signalSector ← r.signalSector
    return decide (sector = signalSector ∧ sector ≠ unknownSector)
  else some false

/-- `_check_spread_legs`; `none` is a read of the positions that raised. -/
def spreadLegs (s : RiskSignal) (positions : Option (List LegRead)) : CheckOutcome :=
  if s.symbol = [] then .passed
  else
    match positions.bind (countReads (isLeg s)) with
    | none => .passed
    | some legs => if 3 ≤ legs + 1 then .failed else .passed

/-- A read the check needs raised. -/
def SpreadUnevaluated (s : RiskSignal) (positions : Option (List LegRead)) : Prop :=
  s.symbol ≠ [] ∧
    (positions = none ∨ ∃ reads, positions = some reads ∧
      ∃ r ∈ reads, OppositeSide s r.position ∧ (r.sector = none ∨ r.signalSector = none))

/-- Everything could be read, and the signal makes a third leg. -/
def SpreadFull (s : RiskSignal) (positions : Option (List LegRead)) : Prop :=
  s.symbol ≠ [] ∧ ¬ SpreadUnevaluated s positions ∧ ∃ reads, positions = some reads ∧
    2 ≤ (reads.filter fun r => isLeg s r = some true).length

theorem isLeg_eq_none_iff {s : RiskSignal} {r : LegRead} :
    isLeg s r = none ↔
      OppositeSide s r.position ∧ (r.sector = none ∨ r.signalSector = none) := by
  unfold isLeg
  split_ifs with hopposite
  · cases r.sector <;> cases r.signalSector <;> simp [hopposite]
  · simp [hopposite]

/-- The check refuses a third leg, and nothing it cannot read. -/
theorem spreadLegs_passed_iff {s : RiskSignal} {positions : Option (List LegRead)} :
    spreadLegs s positions = .passed ↔ ¬ SpreadFull s positions := by
  unfold spreadLegs SpreadFull SpreadUnevaluated
  by_cases hsymbol : s.symbol = []
  · simp [hsymbol]
  · rw [if_neg hsymbol]
    cases positions with
    | none => simp
    | some reads =>
        rw [Option.bind_some]
        cases hcount : countReads (isLeg s) reads with
        | none =>
            rcases countReads_eq_none_iff.mp hcount with ⟨r, hr, hraised⟩
            have hfailed : ∃ r ∈ reads, OppositeSide s r.position ∧
                (r.sector = none ∨ r.signalSector = none) :=
              ⟨r, hr, isLeg_eq_none_iff.mp hraised⟩
            simp [hsymbol, hfailed]
        | some count =>
            have hlength := countReads_eq_some_iff.mp hcount
            have hread : ¬ ∃ r ∈ reads, OppositeSide s r.position ∧
                (r.sector = none ∨ r.signalSector = none) := by
              rintro ⟨r, hr, hraised⟩
              exact hlength.1 r hr (isLeg_eq_none_iff.mpr hraised)
            simp [hsymbol, hread, hlength.2]

/-! ## Circuit breakers -/

/-- The read of the breaker's key as its readers see it. -/
def BreakerRead.ofKey : Option (KeyRead BreakerState) → BreakerRead
  | none => .noRedis
  | some .raised => .raised
  | some .absent => .absent
  | some .malformed => .malformed
  | some (.value s) => .state s

/-- The read of the key failed, or its reason is null. -/
def BreakerUnevaluated (read : BreakerRead) : Prop :=
  read = .raised ∨ read = .malformed ∨
    ∃ state, read = .state state ∧ state.status = triggeredStatus ∧ state.reason = none

/-- The breaker is triggered with a reason the check recognises. -/
def BreakerTriggered (recognises : Text → Bool) (read : BreakerRead) : Prop :=
  ∃ state reason, read = .state state ∧ state.status = triggeredStatus ∧
    state.reason = some reason ∧ recognises reason = true

/-- A breaker's check refuses its own reasons and whatever it cannot read. -/
theorem breakerCheck_passed_iff {recognises : Text → Bool} {read : BreakerRead} :
    breakerCheck recognises read = .passed ↔
      ¬ (BreakerUnevaluated read ∨ BreakerTriggered recognises read) := by
  unfold BreakerUnevaluated BreakerTriggered
  cases read with
  | noRedis => simp [breakerCheck]
  | raised => simp [breakerCheck]
  | absent => simp [breakerCheck]
  | malformed => simp [breakerCheck]
  | state state =>
      rw [breakerCheck]
      by_cases htriggered : state.status = triggeredStatus
      · rw [if_pos htriggered]
        cases hreason : state.reason with
        | none => simp [htriggered, hreason]
        | some reason =>
            cases hrecognised : recognises reason <;> simp [htriggered, hreason, hrecognised]
      · simp [htriggered]

/-! ## Macro filter and drawdown velocity -/

/-- `_check_macro_kill_switch`. -/
def macroKillSwitch (direction : Text) (active : Bool) : CheckOutcome :=
  if direction = "LONG".toList ∧ active = true then .failed else .passed

/-- A recent trade; a missing or unreadable time skips it, an unreadable result raises. -/
structure RecentTrade where
  exitTime : Option ℚ
  realizedPnl : Option ℚ
deriving Repr, DecidableEq

/-- What the velocity check reads and writes; `trades` is `none` without a trade store. -/
structure VelocityAnswers where
  now : ℚ
  pauseUntil : KeyRead ℚ
  pauseDeleted : Bool
  trades : Option (Option (List RecentTrade))
  wallet : Option ℚ
  pauseWritten : Bool
deriving Repr, DecidableEq

/-- One trade of the last hour. -/
def addRecent (since pnl : ℚ) (t : RecentTrade) : Option ℚ :=
  match t.exitTime with
  | none => some pnl
  | some exitTime => if since ≤ exitTime then t.realizedPnl.map (pnl + ·) else some pnl

/-- Did the account lose more than the threshold in the last hour?  `none` when the check
raises or returns early. -/
def velocityLoss (threshold : ℚ) (a : VelocityAnswers) : Option Bool :=
  (a.trades.bind id).bind fun trades =>
    if trades = [] then none
    else (trades.foldlM (addRecent (a.now - 3600)) 0).map fun pnl =>
      let equity := (getWalletBalance a.wallet).balance
      decide (0 < equity ∧ pnl / equity < threshold)

/-- The part of the check behind an old pause. -/
def velocityBreaker (threshold : ℚ) (a : VelocityAnswers) : CheckOutcome :=
  if velocityLoss threshold a = some true ∧ a.pauseWritten = true then .failed else .passed

/-- `_check_drawdown_velocity`; `none` stands for a missing Redis client. -/
def drawdownVelocity (threshold : ℚ) : Option VelocityAnswers → CheckOutcome
  | none => .passed
  | some a =>
      match a.pauseUntil with
      | .raised | .malformed => .passed
      | .absent => velocityBreaker threshold a
      | .value pauseUntil =>
          if a.now < pauseUntil then .failed
          else if a.pauseDeleted then velocityBreaker threshold a
          else .passed

/-- A pause is running, or the account loses too fast. -/
def VelocityRefuses (threshold : ℚ) (answers : Option VelocityAnswers) : Prop :=
  ∃ a, answers = some a ∧
    ((∃ pauseUntil, a.pauseUntil = .value pauseUntil ∧ a.now < pauseUntil) ∨
      ((a.pauseUntil = .absent ∨
          ∃ pauseUntil, a.pauseUntil = .value pauseUntil ∧ a.pauseDeleted = true) ∧
        velocityLoss threshold a = some true ∧ a.pauseWritten = true))

theorem velocityBreaker_passed_iff {threshold : ℚ} {a : VelocityAnswers} :
    velocityBreaker threshold a = .passed ↔
      ¬ (velocityLoss threshold a = some true ∧ a.pauseWritten = true) := by
  unfold velocityBreaker
  split_ifs with hloss <;> simp [hloss]

theorem drawdownVelocity_passed_iff {threshold : ℚ} {answers : Option VelocityAnswers} :
    drawdownVelocity threshold answers = .passed ↔ ¬ VelocityRefuses threshold answers := by
  unfold VelocityRefuses
  cases answers with
  | none => simp [drawdownVelocity]
  | some a =>
      rw [drawdownVelocity]
      cases hpause : a.pauseUntil with
      | raised => simp [hpause]
      | malformed => simp [hpause]
      | absent => simp [hpause, velocityBreaker_passed_iff]
      | value pauseUntil =>
          dsimp only
          split_ifs with hrunning hdeleted
          · simp [hpause, hrunning]
          · simp [hpause, hrunning, hdeleted, velocityBreaker_passed_iff]
          · simp [hpause, hrunning, hdeleted]

end Risk
end Karsa
