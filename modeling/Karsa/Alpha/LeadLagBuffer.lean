import Karsa.Foundations.Dicts
import Karsa.Foundations.Sightings
import Karsa.Foundations.Text
import Karsa.Foundations.Windows
import Mathlib.Algebra.Order.Field.Rat
import Mathlib.Tactic.Linarith

/-!
# Alpha - Lead-lag buffer

`LeadLagBuffer` keeps the prices of the last fifteen minutes of every symbol on every exchange,
and compares the return of a leading exchange with that of a lagging one.  A buffer is cut when
a price comes in, not when it is read.

Main results:

- Theorem `buffer_after`: a buffer has the prices of the window behind the newest one.
- Theorem `getLeadLagDelta_after`: the difference of the returns of two such windows.
- Theorem `getLatestPrices_after`: the newest price of every exchange.
-/

namespace Karsa
namespace LeadLagBuffer

/-- A time and a price. -/
abbrev Tick : Type :=
  ℚ × ℚ

/-- `_buffers`. -/
abbrev Buffers : Type :=
  Dict Text (Dict Text (List Tick))

/-- `self._buffers[symbol][exchange]`, an empty buffer if there is none. -/
def buffer (s : Buffers) (symbol exchange : Text) : List Tick :=
  ((((s.get symbol).getD []).get exchange).getD [])

/-- The assignment of a buffer. -/
def assign (s : Buffers) (symbol exchange : Text) (buf : List Tick) : Buffers :=
  s.set symbol (((s.get symbol).getD []).set exchange buf)

/-- `_return`. -/
def returnOf (buf : List Tick) : Option ℚ :=
  if buf.length < 2 then none
  else
    match buf.head?, buf.getLast? with
    | some old, some new => if old.2 = 0 then none else some ((new.2 - old.2) / old.2)
    | _, _ => none

/-- `get_lead_lag_delta`. -/
def getLeadLagDelta (s : Buffers) (symbol lead lag : Text) : Option ℚ :=
  match returnOf (buffer s symbol lead), returnOf (buffer s symbol lag) with
  | some leadRet, some lagRet => some (leadRet - lagRet)
  | _, _ => none

/-- `get_latest_prices`. -/
def getLatestPrices (s : Buffers) (symbol : Text) : Dict Text ℚ :=
  Dict.index (((s.get symbol).getD []).filterMap fun item =>
    item.2.getLast?.map fun tick => (item.1, tick.2))

/-- A price comes in, the delta is read, everything is cleared. -/
inductive Event where
  | update (symbol exchange : Text) (now price : ℚ)
  | read (symbol lead lag : Text)
  | clear
deriving Repr, DecidableEq

/-- One event; reading a buffer that is not there creates it. -/
def step (windowSeconds : ℚ) (s : Buffers) : Event → Buffers
  | .update symbol exchange now price =>
      assign s symbol exchange
        (slide Prod.fst (now - windowSeconds) (buffer s symbol exchange) (now, price))
  | .read symbol lead lag =>
      let s' := assign s symbol lead (buffer s symbol lead)
      assign s' symbol lag (buffer s' symbol lag)
  | .clear => []

/-- The buffers after some events. -/
def after (windowSeconds : ℚ) (events : List Event) : Buffers :=
  run (step windowSeconds) [] events

/-! ## Prices of one symbol on one exchange -/

/-- Whether the event clears. -/
def Event.clears : Event → Bool
  | .clear => true
  | .update _ _ _ _ | .read _ _ _ => false

/-- The price that an event brings. -/
def Event.tick (symbol exchange : Text) : Event → Option Tick
  | .update symbol' exchange' now price =>
      if symbol' = symbol ∧ exchange' = exchange then some (now, price) else none
  | .read _ _ _ | .clear => none

/-- The prices that came in since everything was cleared. -/
def ticksOf (symbol exchange : Text) (events : List Event) : List Tick :=
  (events.rtakeWhile fun event => !event.clears).filterMap (Event.tick symbol exchange)

@[simp] theorem ticksOf_nil (symbol exchange : Text) : ticksOf symbol exchange [] = [] := rfl

/-- Prices one event later. -/
theorem ticksOf_concat (symbol exchange : Text) (events : List Event) (event : Event) :
    ticksOf symbol exchange (events ++ [event]) =
      if event.clears then []
      else ticksOf symbol exchange events ++ (event.tick symbol exchange).toList := by
  rw [ticksOf, List.rtakeWhile_concat]
  cases hclears : event.clears with
  | true => rfl
  | false =>
      rw [if_pos (by rfl), if_neg (by simp), List.filterMap_append, ticksOf]
      cases htick : event.tick symbol exchange with
      | none => rw [List.filterMap_cons_none htick]; rfl
      | some tick => rw [List.filterMap_cons_some htick]; rfl

/-- The prices of the window behind the newest one. -/
def recent (windowSeconds : ℚ) (ticks : List Tick) : List Tick :=
  match ticks.getLast? with
  | none => []
  | some last => ticks.filter fun tick => decide (last.1 - windowSeconds ≤ tick.1)

/-- The window one price later. -/
theorem slide_recent (windowSeconds : ℚ) {ticks : List Tick} {tick : Tick}
    (h : (ticks ++ [tick]).Pairwise fun a b => a.1 ≤ b.1) :
    slide Prod.fst (tick.1 - windowSeconds) (recent windowSeconds ticks) tick =
      recent windowSeconds (ticks ++ [tick]) := by
  have hnew : recent windowSeconds (ticks ++ [tick]) =
      (ticks ++ [tick]).filter fun t => decide (tick.1 - windowSeconds ≤ t.1) := by
    rw [recent, List.getLast?_concat]
  rw [hnew]
  rcases List.eq_nil_or_concat ticks with rfl | ⟨init, last, rfl⟩
  · exact dropWhile_lt_eq_filter (List.pairwise_singleton _ tick) _
  · rw [List.concat_eq_append] at h ⊢
    have hlast : last.1 ≤ tick.1 :=
      (List.pairwise_append.mp h).2.2 last (by simp) tick List.mem_cons_self
    have hold : recent windowSeconds (init ++ [last]) =
        (init ++ [last]).filter fun t => decide (last.1 - windowSeconds ≤ t.1) := by
      rw [recent, List.getLast?_concat]
    rw [hold]
    exact slide_filter h (by linarith)

/-! ## Buffers -/

/-- An assignment and its own buffer. -/
theorem buffer_assign_self (s : Buffers) (symbol exchange : Text) (buf : List Tick) :
    buffer (assign s symbol exchange buf) symbol exchange = buf := by
  simp [buffer, assign]

/-- An assignment and another buffer. -/
theorem buffer_assign_of_ne {s : Buffers} {symbol exchange symbol' exchange' : Text}
    (hne : ¬ (symbol = symbol' ∧ exchange = exchange')) (buf : List Tick) :
    buffer (assign s symbol exchange buf) symbol' exchange' = buffer s symbol' exchange' := by
  by_cases hsymbol : symbol' = symbol
  · subst hsymbol
    have hexchange : exchange' ≠ exchange := fun h => hne ⟨rfl, h.symm⟩
    simp [buffer, assign, Dict.get_set_of_ne hexchange]
  · simp [buffer, assign, Dict.get_set_of_ne hsymbol]

/-- Assigning a buffer what it holds changes no buffer. -/
theorem buffer_assign_buffer (s : Buffers) (symbol exchange symbol' exchange' : Text) :
    buffer (assign s symbol exchange (buffer s symbol exchange)) symbol' exchange' =
      buffer s symbol' exchange' := by
  by_cases hsame : symbol = symbol' ∧ exchange = exchange'
  · rw [← hsame.1, ← hsame.2, buffer_assign_self]
  · exact buffer_assign_of_ne hsame _

/-- With a clock that does not run backwards every buffer has the prices of the window behind its
newest one, however long ago that came in. -/
theorem buffer_after (windowSeconds : ℚ) {events : List Event} (symbol exchange : Text)
    (hclock : (ticksOf symbol exchange events).Pairwise fun a b => a.1 ≤ b.1) :
    buffer (after windowSeconds events) symbol exchange =
      recent windowSeconds (ticksOf symbol exchange events) := by
  induction events using List.reverseRecOn with
  | nil => rfl
  | append_singleton events event ih =>
      rw [after, run_concat]
      rw [ticksOf_concat] at hclock ⊢
      cases event with
      | clear => rfl
      | read symbol' lead lag =>
          rw [Event.clears, if_neg (by simp), Event.tick, Option.toList_none,
            List.append_nil] at hclock ⊢
          rw [step, buffer_assign_buffer, buffer_assign_buffer]
          exact ih hclock
      | update symbol' exchange' now price =>
          rw [Event.clears, if_neg (by simp), Event.tick] at hclock ⊢
          rw [step]
          by_cases hsame : symbol' = symbol ∧ exchange' = exchange
          · rw [if_pos hsame, Option.toList_some] at hclock ⊢
            rw [hsame.1, hsame.2, buffer_assign_self]
            rw [← slide_recent windowSeconds hclock, ← ih (List.pairwise_append.mp hclock).1]
            rfl
          · rw [if_neg hsame, Option.toList_none, List.append_nil] at hclock ⊢
            rw [buffer_assign_of_ne hsame]
            exact ih hclock

/-! ## Returns -/

/-- The return from the oldest price of the window behind the newest one to the newest one. -/
def ReturnIs (windowSeconds : ℚ) (ticks : List Tick) (r : ℚ) : Prop :=
  ∃ before old mid new, ticks = before ++ old :: (mid ++ [new]) ∧
    (∀ tick ∈ before, tick.1 < new.1 - windowSeconds) ∧ new.1 - windowSeconds ≤ old.1 ∧
    old.2 ≠ 0 ∧ r = (new.2 - old.2) / old.2

/-- A window of at least two prices. -/
theorem returnOf_window (old : Tick) (mid : List Tick) (new : Tick) :
    returnOf (old :: (mid ++ [new])) =
      if old.2 = 0 then none else some ((new.2 - old.2) / old.2) := by
  have hlast : (old :: (mid ++ [new])).getLast? = some new := by
    rw [← List.cons_append, List.getLast?_concat]
  rw [returnOf, hlast, List.head?_cons, if_neg (by simp)]

/-- The return of a window. -/
theorem returnOf_recent {windowSeconds : ℚ} {ticks : List Tick}
    (hclock : ticks.Pairwise fun a b => a.1 ≤ b.1) {r : ℚ} :
    returnOf (recent windowSeconds ticks) = some r ↔ ReturnIs windowSeconds ticks r := by
  constructor
  · intro h
    rcases List.eq_nil_or_concat ticks with rfl | ⟨init, new, rfl⟩
    · simp [recent, returnOf] at h
    · rw [List.concat_eq_append] at hclock h ⊢
      have hrecent : recent windowSeconds (init ++ [new]) =
          (init ++ [new]).dropWhile fun t => decide (t.1 < new.1 - windowSeconds) := by
        rw [dropWhile_lt_eq_filter hclock, recent, List.getLast?_concat]
      have hsplit := List.takeWhile_append_dropWhile (p := fun t : Tick =>
        decide (t.1 < new.1 - windowSeconds)) (l := init ++ [new])
      rw [← hrecent] at hsplit
      -- the window has at least two prices, and its last one is the newest
      rcases hwindow : recent windowSeconds (init ++ [new]) with _ | ⟨old, rest⟩
      · rw [hwindow] at h
        simp [returnOf] at h
      · rcases List.eq_nil_or_concat rest with rfl | ⟨mid, last, rfl⟩
        · rw [hwindow] at h
          simp [returnOf] at h
        · rw [List.concat_eq_append] at hwindow
          rw [hwindow] at h hsplit
          have hlast : last = new := by
            have hends := congrArg List.getLast? hsplit
            rw [← List.cons_append, ← List.append_assoc, List.getLast?_concat,
              List.getLast?_concat] at hends
            exact Option.some.inj hends
          subst hlast
          rw [returnOf_window] at h
          split_ifs at h with hzero
          refine ⟨_, old, mid, last, hsplit.symm, fun tick htick => ?_, ?_, hzero,
            (Option.some.inj h).symm⟩
          · have hdropped := List.mem_takeWhile_imp htick
            exact of_decide_eq_true hdropped
          · have hold : old ∈ recent windowSeconds (init ++ [last]) := by
              rw [hwindow]
              exact List.mem_cons_self
            rw [recent, List.getLast?_concat] at hold
            exact of_decide_eq_true (List.mem_filter.mp hold).2
  · rintro ⟨before, old, mid, new, rfl, hbefore, hold, hzero, rfl⟩
    have hinside := (List.pairwise_append.mp hclock).2.1
    have hrecent : recent windowSeconds (before ++ old :: (mid ++ [new])) =
        old :: (mid ++ [new]) := by
      have hlast : (before ++ old :: (mid ++ [new])).getLast? = some new := by
        rw [← List.cons_append, ← List.append_assoc, List.getLast?_concat]
      rw [recent, hlast]
      dsimp only
      rw [List.filter_append, List.filter_eq_nil_iff.mpr, List.nil_append,
        List.filter_eq_self.mpr]
      · intro tick htick
        rcases List.mem_cons.mp htick with rfl | hrest
        · exact decide_eq_true hold
        · exact decide_eq_true (hold.trans ((List.pairwise_cons.mp hinside).1 tick hrest))
      · intro tick htick
        rw [decide_eq_true_eq, not_le]
        exact hbefore tick htick
    rw [hrecent, returnOf_window, if_neg hzero]

/-- The delta is the difference of the returns of two windows, each behind the newest price of
its own exchange: an exchange that has gone silent keeps its last return. -/
theorem getLeadLagDelta_after {windowSeconds : ℚ} {events : List Event} {symbol lead lag : Text}
    (hlead : (ticksOf symbol lead events).Pairwise fun a b => a.1 ≤ b.1)
    (hlag : (ticksOf symbol lag events).Pairwise fun a b => a.1 ≤ b.1) {delta : ℚ} :
    getLeadLagDelta (after windowSeconds events) symbol lead lag = some delta ↔
      ∃ leadRet lagRet, ReturnIs windowSeconds (ticksOf symbol lead events) leadRet ∧
        ReturnIs windowSeconds (ticksOf symbol lag events) lagRet ∧ delta = leadRet - lagRet := by
  rw [getLeadLagDelta, buffer_after windowSeconds symbol lead hlead,
    buffer_after windowSeconds symbol lag hlag]
  constructor
  · intro h
    cases hleadRet : returnOf (recent windowSeconds (ticksOf symbol lead events)) with
    | none => simp [hleadRet] at h
    | some leadRet =>
        cases hlagRet : returnOf (recent windowSeconds (ticksOf symbol lag events)) with
        | none => simp [hleadRet, hlagRet] at h
        | some lagRet =>
            rw [hleadRet, hlagRet] at h
            exact ⟨leadRet, lagRet, (returnOf_recent hlead).mp hleadRet,
              (returnOf_recent hlag).mp hlagRet, (Option.some.inj h).symm⟩
  · rintro ⟨leadRet, lagRet, hleadRet, hlagRet, rfl⟩
    rw [(returnOf_recent hlead).mpr hleadRet, (returnOf_recent hlag).mpr hlagRet]

/-- The lead has moved by a tenth, the lag not at all. -/
def lagging : List Event :=
  [.update ['B'] ['a'] 0 100, .update ['B'] ['b'] 1 100, .update ['B'] ['a'] 60 110,
    .update ['B'] ['b'] 61 100]

/-- The delta is the tenth. -/
theorem getLeadLagDelta_after_lagging :
    getLeadLagDelta (after 900 lagging) ['B'] ['a'] ['b'] = some (1 / 10) := by
  have hlead : ticksOf ['B'] ['a'] lagging = [(0, 100), (60, 110)] := by decide +kernel
  have hlag : ticksOf ['B'] ['b'] lagging = [(1, 100), (61, 100)] := by decide +kernel
  refine (getLeadLagDelta_after (by rw [hlead]; decide +kernel) (by rw [hlag]; decide +kernel)).mpr
    ⟨1 / 10, 0, ?_, ?_, by norm_num⟩
  · rw [hlead]
    exact ⟨[], (0, 100), [], (60, 110), rfl, by simp, by norm_num, by norm_num, by norm_num⟩
  · rw [hlag]
    exact ⟨[], (1, 100), [], (61, 100), rfl, by simp, by norm_num, by norm_num, by norm_num⟩

/-! ## Latest prices -/

/-- No exchange of a symbol is listed twice. -/
def Listed (s : Buffers) : Prop :=
  ∀ symbol exchanges, s.get symbol = some exchanges → exchanges.keys.Nodup

/-- An assignment lists no exchange twice. -/
theorem listed_assign {s : Buffers} (h : Listed s) (symbol exchange : Text) (buf : List Tick) :
    Listed (assign s symbol exchange buf) := by
  intro symbol' exchanges hget
  rw [assign] at hget
  by_cases hsymbol : symbol' = symbol
  · rw [hsymbol, Dict.get_set_self, Option.some_inj] at hget
    rw [← hget]
    refine Dict.nodup_keys_set ?_ exchange buf
    cases hold : s.get symbol with
    | none => exact List.nodup_nil
    | some old => exact h symbol old hold
  · rw [Dict.get_set_of_ne hsymbol] at hget
    exact h symbol' exchanges hget

/-- The buffers list no exchange twice. -/
theorem listed_after (windowSeconds : ℚ) (events : List Event) :
    Listed (after windowSeconds events) := by
  induction events using List.reverseRecOn with
  | nil => exact fun symbol exchanges h => by simp [after] at h
  | append_singleton events event ih =>
      rw [after, run_concat]
      cases event with
      | update symbol exchange now price => exact listed_assign ih _ _ _
      | read symbol lead lag => exact listed_assign (listed_assign ih _ _ _) _ _ _
      | clear => exact fun symbol exchanges h => by simp [step] at h

/-- The newest price of a buffer. -/
theorem get_getLatestPrices {s : Buffers} (h : Listed s) (symbol exchange : Text) :
    (getLatestPrices s symbol).get exchange = (buffer s symbol exchange).getLast?.map Prod.snd := by
  cases hexchanges : s.get symbol with
  | none => simp [getLatestPrices, buffer, hexchanges, Dict.index]
  | some exchanges =>
      have hnodup := h symbol exchanges hexchanges
      have hbuffer : buffer s symbol exchange = (exchanges.get exchange).getD [] := by
        rw [buffer, hexchanges, Option.getD_some]
      have hvalue : ∀ price, (getLatestPrices s symbol).get exchange = some price →
          (buffer s symbol exchange).getLast?.map Prod.snd = some price := by
        intro price hget
        rw [getLatestPrices, hexchanges, Option.getD_some] at hget
        rcases List.mem_filterMap.mp (Dict.mem_of_mem_index (Dict.mem_of_get hget)) with
          ⟨⟨key, buf⟩, hitem, hprice⟩
        rcases Option.map_eq_some_iff.mp hprice with ⟨tick, hlast, heq⟩
        rw [Prod.mk.injEq] at heq
        rcases heq with ⟨rfl, rfl⟩
        rw [hbuffer, Dict.get_of_mem hnodup hitem, Option.getD_some, hlast, Option.map_some]
      cases hlast : (buffer s symbol exchange).getLast? with
      | none =>
          cases hget : (getLatestPrices s symbol).get exchange with
          | none => rfl
          | some price =>
              have hsome := hvalue price hget
              rw [hlast] at hsome
              contradiction
      | some tick =>
          have hkey : exchange ∈ (getLatestPrices s symbol).keys := by
            rw [getLatestPrices, hexchanges, Option.getD_some, Dict.mem_keys_index]
            cases hbuf : exchanges.get exchange with
            | none => simp [hbuffer, hbuf] at hlast
            | some buf =>
                rw [hbuffer, hbuf, Option.getD_some] at hlast
                refine List.mem_map.mpr ⟨(exchange, tick.2), ?_, rfl⟩
                exact List.mem_filterMap.mpr ⟨(exchange, buf), Dict.mem_of_get hbuf,
                  by rw [hlast, Option.map_some]⟩
          rcases Dict.exists_get_of_mem_keys hkey with ⟨price, hget⟩
          rw [hget, ← hvalue price hget, hlast]

/-- The newest price is in the window behind it. -/
theorem getLast?_recent {windowSeconds : ℚ} (hwindow : 0 ≤ windowSeconds) (ticks : List Tick) :
    (recent windowSeconds ticks).getLast? = ticks.getLast? := by
  rcases List.eq_nil_or_concat ticks with rfl | ⟨init, last, rfl⟩
  · rfl
  · rw [List.concat_eq_append, recent, List.getLast?_concat]
    have hlast : [last].filter (fun tick => decide (last.1 - windowSeconds ≤ tick.1)) = [last] := by
      simpa using hwindow
    dsimp only
    rw [List.filter_append, hlast, List.getLast?_concat]

/-- For every exchange that a price of the symbol came in from since everything was cleared, the
newest one, and no other exchange. -/
theorem getLatestPrices_after {windowSeconds : ℚ} (hwindow : 0 ≤ windowSeconds)
    {events : List Event} {symbol exchange : Text}
    (hclock : (ticksOf symbol exchange events).Pairwise fun a b => a.1 ≤ b.1) :
    (getLatestPrices (after windowSeconds events) symbol).get exchange =
      (ticksOf symbol exchange events).getLast?.map Prod.snd := by
  rw [get_getLatestPrices (listed_after windowSeconds events),
    buffer_after windowSeconds symbol exchange hclock, getLast?_recent hwindow]

end LeadLagBuffer
end Karsa
