import Mathlib.Algebra.Order.Field.Basic
import Mathlib.Order.Bounds.Basic
import Mathlib.Tactic.Linarith

/-!
# Foundations - Drawdowns

The drawdown of a curve at a point is its distance from the highest point so far, relative to
that.  The deepest drawdown is the worst decline between any two points.

Main results:

- Theorem `cumprod_pos_iff`: a cumulative product is positive if its factors are.
- Theorem `drawdowns_mem`: the drawdowns of a positive curve.
- Theorem `isLeast_decline`: the least drawdown is the worst decline.
-/

namespace Karsa

variable {K : Type*} [Field K] [LinearOrder K]

/-- The products of the factors up to each place, on top of a first one. -/
def cumprodFrom (start : K) : List K → List K
  | [] => []
  | x :: rest => start * x :: cumprodFrom (start * x) rest

/-- The highest value up to each place, a first peak included. -/
def accumulateMaxFrom (peak : K) : List K → List K
  | [] => []
  | x :: rest => max peak x :: accumulateMaxFrom (max peak x) rest

/-- The highest value up to each place. -/
def accumulateMax : List K → List K
  | [] => []
  | x :: rest => x :: accumulateMaxFrom x rest

/-- The distance of a value from its peak, relative to the peak. -/
def decline (peak value : K) : K :=
  (value - peak) / peak

/-- The drawdown at each place of a curve. -/
def drawdowns (curve : List K) : List K :=
  List.zipWith (fun value peak => decline peak value) curve (accumulateMax curve)

/-- A value of the curve and one that stands at the same place or behind it. -/
inductive Ahead : List K → K → K → Prop
  | here {a b : K} {rest : List K} : b ∈ a :: rest → Ahead (a :: rest) a b
  | there {x a b : K} {rest : List K} : Ahead rest a b → Ahead (x :: rest) a b

/-- A number is the worst decline of a curve. -/
def WorstDecline (curve : List K) (d : K) : Prop :=
  IsLeast {d | ∃ a b, Ahead curve a b ∧ d = decline a b} d

/-- The drawdowns behind a peak. -/
def drawdownsFrom (peak : K) (rest : List K) : List K :=
  List.zipWith (fun value peak => decline peak value) rest (accumulateMaxFrom peak rest)

theorem drawdownsFrom_cons (peak x : K) (rest : List K) :
    drawdownsFrom peak (x :: rest) = decline (max peak x) x :: drawdownsFrom (max peak x) rest :=
  rfl

theorem drawdowns_cons (x : K) (rest : List K) :
    drawdowns (x :: rest) = decline x x :: drawdownsFrom x rest :=
  rfl

/-- The drawdowns of a curve are those behind its first value as a peak. -/
theorem drawdowns_eq (x : K) (rest : List K) :
    drawdowns (x :: rest) = drawdownsFrom x (x :: rest) := by
  rw [drawdowns_cons, drawdownsFrom_cons, max_self]

variable [IsStrictOrderedRing K]

/-! ## Cumulative products -/

/-- Cumulative products are positive exactly if the factors are. -/
theorem cumprodFrom_pos_iff {start : K} (hstart : 0 < start) (factors : List K) :
    (∀ e ∈ cumprodFrom start factors, 0 < e) ↔ ∀ x ∈ factors, 0 < x := by
  induction factors generalizing start with
  | nil => simp [cumprodFrom]
  | cons x rest ih =>
      rw [cumprodFrom, List.forall_mem_cons, List.forall_mem_cons, mul_pos_iff_of_pos_left hstart]
      constructor
      · rintro ⟨hx, hrest⟩
        exact ⟨hx, (ih (mul_pos hstart hx)).mp hrest⟩
      · rintro ⟨hx, hrest⟩
        exact ⟨hx, (ih (mul_pos hstart hx)).mpr hrest⟩

/-! ## Declines -/

/-- A decline between positive values is more than minus one. -/
theorem neg_one_lt_decline {peak value : K} (hpeak : 0 < peak) (hvalue : 0 < value) :
    -1 < decline peak value := by
  rw [decline, lt_div_iff₀ hpeak]
  linarith

/-- There is no rise from a peak. -/
theorem decline_nonpos {peak value : K} (hpeak : 0 < peak) (hle : value ≤ peak) :
    decline peak value ≤ 0 :=
  div_nonpos_of_nonpos_of_nonneg (by linarith) hpeak.le

/-- The decline from a higher peak is worse. -/
theorem decline_anti {low high value : K} (hlow : 0 < low) (hle : low ≤ high) (hvalue : 0 < value) :
    decline high value ≤ decline low value := by
  have hhigh : 0 < high := lt_of_lt_of_le hlow hle
  rw [decline, decline, div_le_div_iff₀ hhigh hlow]
  have hmul : value * low ≤ value * high := mul_le_mul_of_nonneg_left hle hvalue.le
  linarith

/-! ## The least drawdown -/

/-- A drawdown behind a peak is a decline from the peak or between two places, and lies between
minus one and zero. -/
theorem drawdownsFrom_mem {peak : K} {rest : List K} (hpeak : 0 < peak) (hrest : ∀ x ∈ rest, 0 < x)
    {d : K} (hd : d ∈ drawdownsFrom peak rest) :
    (-1 < d ∧ d ≤ 0) ∧ ∃ a b, Ahead (peak :: rest) a b ∧ d = decline a b := by
  induction rest generalizing peak with
  | nil => exact absurd hd List.not_mem_nil
  | cons x rest ih =>
      have hx : 0 < x := hrest x List.mem_cons_self
      have hmax : 0 < max peak x := lt_max_of_lt_left hpeak
      rw [drawdownsFrom_cons, List.mem_cons] at hd
      rcases hd with rfl | hd
      · refine ⟨⟨neg_one_lt_decline hmax hx, decline_nonpos hmax (le_max_right _ _)⟩, ?_⟩
        rcases max_choice peak x with h | h
        · exact ⟨peak, x, .here (by simp), by rw [h]⟩
        · exact ⟨x, x, .there (.here (by simp)), by rw [h]⟩
      · rcases ih hmax (fun y hy => hrest y (List.mem_cons_of_mem _ hy)) hd with
          ⟨hbounds, a, b, hahead, hdecline⟩
        refine ⟨hbounds, a, b, ?_, hdecline⟩
        cases hahead with
        | here hb =>
            rcases List.mem_cons.mp hb with hb | hb
            · rcases max_choice peak x with h | h
              · rw [hb, h]
                exact .here List.mem_cons_self
              · rw [hb, h]
                exact .there (.here List.mem_cons_self)
            · rcases max_choice peak x with h | h
              · rw [h]
                exact .here (List.mem_cons_of_mem _ (List.mem_cons_of_mem _ hb))
              · rw [h]
                exact .there (.here (List.mem_cons_of_mem _ hb))
        | there hahead => exact .there (.there hahead)

/-- Each decline behind a peak has a drawdown that is at least as bad. -/
theorem exists_drawdownsFrom_le {peak : K} {rest : List K} (hpeak : 0 < peak)
    (hrest : ∀ x ∈ rest, 0 < x) {a b : K} (hahead : a ≤ peak ∧ 0 < a ∧ b ∈ rest ∨ Ahead rest a b) :
    ∃ d ∈ drawdownsFrom peak rest, d ≤ decline a b := by
  induction rest generalizing peak a with
  | nil => rcases hahead with ⟨-, -, hb⟩ | hahead <;> contradiction
  | cons x rest ih =>
      have hx : 0 < x := hrest x List.mem_cons_self
      have hmax : 0 < max peak x := lt_max_of_lt_left hpeak
      have hfrom : ∀ c, 0 < c → c ≤ max peak x → b ∈ x :: rest →
          ∃ d ∈ drawdownsFrom peak (x :: rest), d ≤ decline c b := by
        intro c hc hle hb
        rw [drawdownsFrom_cons]
        rcases List.mem_cons.mp hb with rfl | hb
        · exact ⟨_, List.mem_cons_self, decline_anti hc hle hx⟩
        · rcases ih hmax (fun y hy => hrest y (List.mem_cons_of_mem _ hy)) (.inl ⟨hle, hc, hb⟩) with
            ⟨d, hd, hdle⟩
          exact ⟨d, List.mem_cons_of_mem _ hd, hdle⟩
      rcases hahead with ⟨hle, ha, hb⟩ | hahead
      · exact hfrom a ha (le_max_of_le_left hle) hb
      · cases hahead with
        | here hb => exact hfrom _ hx (le_max_right _ _) hb
        | there hahead =>
            rcases ih hmax (fun y hy => hrest y (List.mem_cons_of_mem _ hy)) (.inr hahead) with
              ⟨d, hd, hdle⟩
            exact ⟨d, List.mem_cons_of_mem _ hd, hdle⟩

/-- The drawdowns of a positive curve lie between minus one and zero. -/
theorem drawdowns_mem {curve : List K} (hcurve : ∀ x ∈ curve, 0 < x) {d : K}
    (hd : d ∈ drawdowns curve) : -1 < d ∧ d ≤ 0 := by
  cases curve with
  | nil => exact absurd hd List.not_mem_nil
  | cons x rest =>
      rw [drawdowns_eq] at hd
      exact (drawdownsFrom_mem (hcurve x List.mem_cons_self) hcurve hd).1

/-- The least drawdown of a positive curve is its worst decline. -/
theorem isLeast_decline {curve : List K} (hcurve : ∀ x ∈ curve, 0 < x) {d : K}
    (hd : d ∈ drawdowns curve) (hleast : ∀ e ∈ drawdowns curve, d ≤ e) : WorstDecline curve d := by
  cases curve with
  | nil => exact absurd hd List.not_mem_nil
  | cons x rest =>
      have hx : 0 < x := hcurve x List.mem_cons_self
      rw [drawdowns_eq] at hd hleast
      constructor
      · rcases (drawdownsFrom_mem hx hcurve hd).2 with ⟨a, b, hahead, hdecline⟩
        cases hahead with
        | here hb => exact ⟨x, b, .here (by simpa using hb), hdecline⟩
        | there hahead => exact ⟨a, b, hahead, hdecline⟩
      · rintro e ⟨a, b, hahead, rfl⟩
        rcases exists_drawdownsFrom_le hx hcurve (.inr hahead) with ⟨f, hf, hle⟩
        exact le_trans (hleast f hf) hle

end Karsa
