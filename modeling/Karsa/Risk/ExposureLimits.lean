import Karsa.Core.PositionRecord
import Karsa.Foundations.Runs
import Karsa.Risk.PortfolioRiskManager

/-!
# Portfolio risk manager - Exposure limits

`_check_exposure_limits` sums the open positions without the candidate and compares the
sums with a share of the equity; the candidate's own notional only meets the limit for a
single position.

Main results:

- Theorem `exposureLimits_passed_iff`: what the check compares.
- Theorem `within_admitSignal_iff`: when one admission keeps the totals within their limits.
- Theorem `admitted_within_iff`: the runs that stay within the limits.
-/

namespace Karsa
namespace Risk

/-! ## The check -/

/-- Limits as shares of the equity. -/
structure ExposureSettings where
  maxGrossPct : ℚ
  maxNetPct : ℚ
  maxSinglePct : ℚ
deriving Repr, DecidableEq

/-- The defaults of the configuration. -/
def ExposureSettings.default : ExposureSettings where
  maxGrossPct := 1 / 2
  maxNetPct := 3 / 10
  maxSinglePct := 2 / 5

/-- What `get_wallet_balance` returns: a failure is a zero balance with an error. -/
structure Wallet where
  balance : ℚ
  error : Bool
deriving Repr, DecidableEq

/-- `BybitClient.get_wallet_balance`; `none` is a `fetch_balance` that raised. -/
def getWalletBalance : Option ℚ → Wallet
  | some total => ⟨total, false⟩
  | none => ⟨0, true⟩

/-- What the check reads of a position. -/
structure HeldPosition where
  side : Side
  entryPrice : ℚ
  amount : ℚ
deriving Repr, DecidableEq

/-- The position of a stored record. -/
def HeldPosition.ofRecord (r : PositionRecord) : HeldPosition :=
  ⟨r.side, r.entryPrice, r.amount⟩

namespace HeldPosition

/-- Entry price times amount; a position without a positive price and size is skipped. -/
def notional (p : HeldPosition) : ℚ :=
  if p.entryPrice ≤ 0 ∨ p.amount ≤ 0 then 0 else p.entryPrice * p.amount

/-- The notional with the sign of the side. -/
def signedNotional (p : HeldPosition) : ℚ :=
  match p.side with
  | .LONG => p.notional
  | .SHORT => -p.notional

end HeldPosition

/-- `gross_notional`. -/
def grossNotional (positions : List HeldPosition) : ℚ :=
  (positions.map HeldPosition.notional).sum

/-- `net_notional`. -/
def netNotional (positions : List HeldPosition) : ℚ :=
  (positions.map HeldPosition.signedNotional).sum

/-- Is the candidate larger than a single position may be?  A missing price or amount is
not looked at. -/
def ExceedsSingle (settings : ExposureSettings) (equity entryPrice amount : ℚ) : Prop :=
  entryPrice ≠ 0 ∧ amount ≠ 0 ∧ equity * settings.maxSinglePct < entryPrice * amount

instance (settings : ExposureSettings) (equity entryPrice amount : ℚ) :
    Decidable (ExceedsSingle settings equity entryPrice amount) :=
  inferInstanceAs (Decidable (_ ∧ _ ∧ _))

/-- `_check_exposure_limits`; `none` is a read of the positions that raised. -/
def exposureLimits (settings : ExposureSettings) (wallet : Wallet)
    (positions : Option (List HeldPosition)) (entryPrice amount : ℚ) : CheckOutcome :=
  if wallet.balance ≤ 0 then .passed
  else
    match positions with
    | none => .failed
    | some positions =>
        if ExceedsSingle settings wallet.balance entryPrice amount then .failed
        else if wallet.balance * settings.maxGrossPct < grossNotional positions then .failed
        else if wallet.balance * settings.maxNetPct < |netNotional positions| then .failed
        else .passed

/-- The totals are within their limits. -/
structure WithinLimits (settings : ExposureSettings) (equity : ℚ)
    (positions : List HeldPosition) : Prop where
  gross : grossNotional positions ≤ equity * settings.maxGrossPct
  net : |netNotional positions| ≤ equity * settings.maxNetPct

/-- The check passes without equity, or where the candidate is small enough and the
positions without it are within the limits. -/
theorem exposureLimits_passed_iff {settings : ExposureSettings} {wallet : Wallet}
    {positions : Option (List HeldPosition)} {entryPrice amount : ℚ} :
    exposureLimits settings wallet positions entryPrice amount = .passed ↔
      wallet.balance ≤ 0 ∨ ∃ held, positions = some held ∧
        ¬ ExceedsSingle settings wallet.balance entryPrice amount ∧
          WithinLimits settings wallet.balance held := by
  unfold exposureLimits
  by_cases hequity : wallet.balance ≤ 0
  · simp [hequity]
  · rw [if_neg hequity]
    cases positions with
    | none => simp [hequity]
    | some held =>
        dsimp only
        split_ifs with hsingle hgross hnet
        · simp [hequity, hsingle]
        · have hnot : ¬ WithinLimits settings wallet.balance held :=
            fun h => absurd hgross (not_lt.mpr h.gross)
          simp [hequity, hnot]
        · have hnot : ¬ WithinLimits settings wallet.balance held :=
            fun h => absurd hnet (not_lt.mpr h.net)
          simp [hequity, hnot]
        · have hwithin : WithinLimits settings wallet.balance held :=
            ⟨not_lt.mp hgross, not_lt.mp hnet⟩
          simp [hsingle, hwithin]

/-! ## Admitting one signal after the other -/

/-- An account: its limits and a positive equity. -/
structure Account where
  settings : ExposureSettings
  equity : ℚ
  funded : 0 < equity

/-- Open positions within the limits of the account. -/
structure Book (a : Account) where
  positions : List HeldPosition
  within : WithinLimits a.settings a.equity positions

/-- Handle one signal: it is opened with its price and amount when the check passes. -/
def admitSignal (a : Account) (positions : List HeldPosition) (signal : HeldPosition) :
    List HeldPosition :=
  if exposureLimits a.settings ⟨a.equity, false⟩ (some positions) signal.entryPrice
      signal.amount = .passed
  then positions ++ [signal]
  else positions

/-- The signal is too large to be admitted, or the totals with it are within the limits. -/
def KeepsLimits (a : Account) (positions : List HeldPosition) (signal : HeldPosition) : Prop :=
  ExceedsSingle a.settings a.equity signal.entryPrice signal.amount ∨
    (grossNotional positions + signal.notional ≤ a.equity * a.settings.maxGrossPct ∧
      |netNotional positions + signal.signedNotional| ≤ a.equity * a.settings.maxNetPct)

theorem grossNotional_append (positions : List HeldPosition) (signal : HeldPosition) :
    grossNotional (positions ++ [signal]) = grossNotional positions + signal.notional := by
  simp [grossNotional]

theorem netNotional_append (positions : List HeldPosition) (signal : HeldPosition) :
    netNotional (positions ++ [signal]) = netNotional positions + signal.signedNotional := by
  simp [netNotional]

/-- From totals within the limits one admission keeps them there exactly under its
condition. -/
theorem within_admitSignal_iff (a : Account) {positions : List HeldPosition}
    (hwithin : WithinLimits a.settings a.equity positions) (signal : HeldPosition) :
    WithinLimits a.settings a.equity (admitSignal a positions signal) ↔
      KeepsLimits a positions signal := by
  unfold admitSignal KeepsLimits
  by_cases hsingle : ExceedsSingle a.settings a.equity signal.entryPrice signal.amount
  · rw [if_neg]
    · exact iff_of_true hwithin (Or.inl hsingle)
    · rw [exposureLimits_passed_iff]
      rintro (hequity | ⟨held, -, hsmall, -⟩)
      · exact absurd hequity (not_le.mpr a.funded)
      · exact hsmall hsingle
  · have hpassed : exposureLimits a.settings ⟨a.equity, false⟩ (some positions)
        signal.entryPrice signal.amount = .passed :=
      exposureLimits_passed_iff.mpr (Or.inr ⟨positions, rfl, hsingle, hwithin⟩)
    rw [if_pos hpassed]
    constructor
    · intro hafter
      have hgross := hafter.gross
      have hnet := hafter.net
      rw [grossNotional_append] at hgross
      rw [netNotional_append] at hnet
      exact Or.inr ⟨hgross, hnet⟩
    · rintro (hlarge | ⟨hgross, hnet⟩)
      · exact absurd hlarge hsingle
      · constructor
        · rwa [grossNotional_append]
        · rwa [netNotional_append]

/-- A run of admissions stays within the limits exactly when each of its signals is too
large or fits. -/
theorem admitted_within_iff (a : Account) (book : Book a) (signals : List HeldPosition) :
    (∀ n, WithinLimits a.settings a.equity (run (admitSignal a) book.positions (signals.take n))) ↔
      Admits (admitSignal a) (KeepsLimits a) book.positions signals :=
  @invariant_iff_admits _ _ (admitSignal a) (KeepsLimits a) (WithinLimits a.settings a.equity)
    (fun _ signal hwithin => within_admitSignal_iff a hwithin signal) _ _ book.within

/-- An equity of 1000 and one long of 400: four tenths are allowed for one position, three
tenths for all of them. -/
theorem admitted_within_first_signal :
    ¬ ∀ (a : Account) (book : Book a) (signals : List HeldPosition) (n : Nat),
      WithinLimits a.settings a.equity (run (admitSignal a) book.positions (signals.take n)) := by
  intro h
  let a : Account := ⟨.default, 1000, by decide +kernel⟩
  let book : Book a := ⟨[], by constructor <;> decide +kernel⟩
  have hnet := (h a book [⟨.LONG, 100, 4⟩] 1).net
  revert hnet
  decide +kernel

end Risk
end Karsa
