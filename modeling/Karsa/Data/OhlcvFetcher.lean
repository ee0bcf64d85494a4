import Karsa.Foundations.Dicts
import Karsa.Foundations.NumberTexts
import Karsa.Foundations.Sightings
import Karsa.Foundations.Traces
import Mathlib.Algebra.Order.Field.Rat

/-!
# Data - Candle fetcher

`OHLCVFetcher` keeps the candles of each symbol, timeframe and limit for a while.  Its callers
share it: a call that finds nothing fresh waits for the exchange, and others go on meanwhile.
When the exchange fails, the caller gets what was kept, however old.

Main results:

- Theorem `cacheKey_inj`: calls with different arguments do not share a key.
- Theorem `served_justified`: where the candles come from that a caller gets.
-/

namespace Karsa
namespace OhlcvFetcher

/-- A call of `fetch`. -/
structure Request where
  symbol : Text
  timeframe : Text
  limit : ℕ
  ttlSeconds : Option ℚ
deriving Repr, DecidableEq

/-- `_cache_key`. -/
def Request.cacheKey (r : Request) : Text :=
  r.symbol ++ ':' :: (r.timeframe ++ ':' :: digitsText (natDigits r.limit))

/-- `ttl`. -/
def Request.ttl (defaultTtlSeconds : ℚ) (r : Request) : ℚ :=
  r.ttlSeconds.getD defaultTtlSeconds

/-- `target`: the swap market where the exchange lists only that. -/
def target (markets : List Text) (symbol : Text) : Text :=
  if markets ≠ [] then
    if symbol ∉ markets then
      let swapSymbol := symbol ++ [':', 'U', 'S', 'D', 'T']
      if swapSymbol ∈ markets then swapSymbol else symbol
    else symbol
  else symbol

variable {Row : Type}

/-- What happens at the fetcher, in order. -/
inductive Entry (Row : Type) where
  | hit (r : Request) (now : ℚ) (candles : List Row)
  | fetched (r : Request) (asked : Text) (now : ℚ) (candles : List Row)
  | failed (r : Request) (candles : List Row)
  | cleared
deriving Repr, DecidableEq

/-- The cache, the calls that wait for the exchange, and what has happened. -/
structure Fetcher (Row : Type) where
  cache : Dict Text (ℚ × List Row)
  waiting : Dict ℕ Request
  log : List (Entry Row)
deriving Repr, DecidableEq

/-- A new fetcher. -/
def Fetcher.new : Fetcher Row :=
  ⟨[], [], []⟩

/-- A caller calls, the exchange answers one of the waiting calls or fails it, or the cache is
cleared. -/
inductive Event (Row : Type) where
  | call (id : ℕ) (r : Request) (now : ℚ)
  | answer (id : ℕ) (now : ℚ) (candles : Option (List Row))
  | clearCache
deriving Repr, DecidableEq

section Steps

variable (defaultTtlSeconds : ℚ) (markets : List Text)

/-- `fetch` up to the call of the exchange. -/
def Fetcher.call (s : Fetcher Row) (id : ℕ) (r : Request) (now : ℚ) : Fetcher Row :=
  match s.cache.get r.cacheKey with
  | some (cachedTime, cachedData) =>
      if now - cachedTime < r.ttl defaultTtlSeconds then
        { s with log := s.log ++ [.hit r now cachedData] }
      else { s with waiting := s.waiting.set id r }
  | none => { s with waiting := s.waiting.set id r }

/-- `fetch` from the answer of the exchange on; `none` is a failure. -/
def Fetcher.answer (s : Fetcher Row) (id : ℕ) (now : ℚ) (candles : Option (List Row)) :
    Fetcher Row :=
  match s.waiting.get id with
  | none => s
  | some r =>
      match candles with
      | some candles =>
          { cache := s.cache.set r.cacheKey (now, candles)
            waiting := s.waiting.pop id
            log := s.log ++ [.fetched r (target markets r.symbol) now candles] }
      | none =>
          { s with
            waiting := s.waiting.pop id
            log := s.log ++ [.failed r (((s.cache.get r.cacheKey).map Prod.snd).getD [])] }

/-- One event. -/
def Fetcher.step (s : Fetcher Row) : Event Row → Fetcher Row
  | .call id r now => s.call defaultTtlSeconds id r now
  | .answer id now candles => s.answer markets id now candles
  | .clearCache => { s with cache := [], log := s.log ++ [.cleared] }

end Steps

/-! ## Keys -/

/-- Calls for different candles do not share a key, whatever the symbols look like, if the
timeframes have no colon. -/
theorem cacheKey_inj {r r' : Request} (htimeframe : ':' ∉ r.timeframe)
    (htimeframe' : ':' ∉ r'.timeframe) (h : r.cacheKey = r'.cacheKey) :
    r.symbol = r'.symbol ∧ r.timeframe = r'.timeframe ∧ r.limit = r'.limit := by
  have hcolon : asciiDigit ':' = none := by decide
  rw [Request.cacheKey, Request.cacheKey, ← List.cons_append, ← List.cons_append,
    ← List.append_assoc, ← List.append_assoc] at h
  rcases Text.append_cons_inj_right (not_mem_digitsText_natDigits hcolon _)
    (not_mem_digitsText_natDigits hcolon _) h with ⟨hfront, hlimit⟩
  rcases Text.append_cons_inj_right htimeframe htimeframe' hfront with ⟨hsymbol, hframe⟩
  exact ⟨hsymbol, hframe, digitsText_natDigits_injective hlimit⟩

/-! ## What is kept -/

/-- Whether the entry says what is kept under the key. -/
def Entry.tells (key : Text) : Entry Row → Bool
  | .fetched r _ _ _ => decide (r.cacheKey = key)
  | .cleared => true
  | .hit _ _ _ | .failed _ _ => false

/-- The newest answer of the exchange under the key, none since the cache was cleared. -/
def Kept (log : List (Entry Row)) (key : Text) (now : ℚ) (candles : List Row) : Prop :=
  ∃ before r asked after, LastAt (Entry.tells key) log before (.fetched r asked now candles) after

/-- What is kept, one entry later. -/
theorem kept_concat {log : List (Entry Row)} {e : Entry Row} {key : Text} {now : ℚ}
    {candles : List Row} :
    Kept (log ++ [e]) key now candles ↔
      (∃ r asked, e = .fetched r asked now candles ∧ r.cacheKey = key) ∨
        (e.tells key = false ∧ Kept log key now candles) := by
  constructor
  · rintro ⟨before, r, asked, after, hlast⟩
    rcases lastAt_concat.mp hlast with ⟨htells, -, rfl, -⟩ | ⟨htells, init, -, hinit⟩
    · exact Or.inl ⟨r, asked, rfl, of_decide_eq_true htells⟩
    · exact Or.inr ⟨htells, before, r, asked, init, hinit⟩
  · rintro (⟨r, asked, rfl, hkey⟩ | ⟨htells, before, r, asked, after, hlast⟩)
    · exact ⟨log, r, asked, [], lastAt_concat.mpr (Or.inl ⟨decide_eq_true hkey, rfl, rfl, rfl⟩)⟩
    · exact ⟨before, r, asked, after ++ [e], lastAt_concat.mpr (Or.inr ⟨htells, after, rfl, hlast⟩)⟩

/-- An entry that tells nothing leaves what is kept. -/
theorem kept_concat_of_not_tells {log : List (Entry Row)} {e : Entry Row} {key : Text} {now : ℚ}
    {candles : List Row} (h : e.tells key = false) :
    Kept (log ++ [e]) key now candles ↔ Kept log key now candles := by
  rw [kept_concat]
  refine ⟨?_, fun hkept => Or.inr ⟨h, hkept⟩⟩
  rintro (⟨r, asked, rfl, hkey⟩ | ⟨-, hkept⟩)
  · rw [Entry.tells, hkey, decide_eq_true rfl] at h
    contradiction
  · exact hkept

/-- The cache is what the log says. -/
def Fetcher.Mirrors (s : Fetcher Row) : Prop :=
  ∀ key now candles, s.cache.get key = some (now, candles) ↔ Kept s.log key now candles

/-! ## What callers get -/

/-- Where the candles of an entry come from: a hit is younger than its time to live, and a failed
call gets what is kept, or nothing. -/
def Justified (defaultTtlSeconds : ℚ) (markets : List Text) (log : List (Entry Row)) :
    Entry Row → Prop
  | .hit r now candles =>
      ∃ cachedTime, Kept log r.cacheKey cachedTime candles ∧
        now - cachedTime < r.ttl defaultTtlSeconds
  | .fetched r asked _ _ => asked = target markets r.symbol
  | .failed r candles =>
      (∃ cachedTime, Kept log r.cacheKey cachedTime candles) ∨
        (candles = [] ∧ ∀ cachedTime other, ¬ Kept log r.cacheKey cachedTime other)
  | .cleared => True

variable {defaultTtlSeconds : ℚ} {markets : List Text}

/-- A fetcher that mirrors its log, in which every entry is justified. -/
structure Fetcher.Sound (defaultTtlSeconds : ℚ) (markets : List Text) (s : Fetcher Row) :
    Prop where
  mirrors : s.Mirrors
  justified : Throughout (Justified defaultTtlSeconds markets) s.log

/-- A call keeps the fetcher sound. -/
theorem Fetcher.Sound.call {s : Fetcher Row} (h : s.Sound defaultTtlSeconds markets) (id : ℕ)
    (r : Request) (now : ℚ) :
    (s.call defaultTtlSeconds id r now).Sound defaultTtlSeconds markets := by
  rw [Fetcher.call]
  cases hcache : s.cache.get r.cacheKey with
  | none => exact ⟨h.mirrors, h.justified⟩
  | some kept =>
      rcases kept with ⟨cachedTime, cachedData⟩
      dsimp only
      split_ifs with hfresh
      · refine ⟨fun key t candles => ?_, h.justified.snoc ⟨cachedTime, ?_, hfresh⟩⟩
        · rw [kept_concat_of_not_tells rfl]
          exact h.mirrors key t candles
        · exact (h.mirrors _ _ _).mp hcache
      · exact ⟨h.mirrors, h.justified⟩

/-- An answer of the exchange keeps it sound. -/
theorem Fetcher.Sound.answer {s : Fetcher Row} (h : s.Sound defaultTtlSeconds markets) (id : ℕ)
    (now : ℚ) (candles : Option (List Row)) :
    (s.answer markets id now candles).Sound defaultTtlSeconds markets := by
  rw [Fetcher.answer]
  cases hwaiting : s.waiting.get id with
  | none => exact h
  | some r =>
      cases candles with
      | none =>
          refine ⟨fun key t other => ?_, h.justified.snoc ?_⟩
          · dsimp only
            rw [kept_concat_of_not_tells rfl]
            exact h.mirrors key t other
          · cases hcache : s.cache.get r.cacheKey with
            | none =>
                refine Or.inr ⟨rfl, fun t other hkept => ?_⟩
                rw [(h.mirrors _ _ _).mpr hkept] at hcache
                contradiction
            | some kept => exact Or.inl ⟨kept.1, (h.mirrors _ _ _).mp hcache⟩
      | some candles =>
          refine ⟨fun key t other => ?_, h.justified.snoc rfl⟩
          dsimp only
          rw [kept_concat]
          by_cases hkey : key = r.cacheKey
          · subst hkey
            rw [Dict.get_set_self, Option.some_inj, Prod.mk.injEq]
            constructor
            · rintro ⟨rfl, rfl⟩
              exact Or.inl ⟨r, _, rfl, rfl⟩
            · rintro (⟨r', asked, heq, -⟩ | ⟨htells, -⟩)
              · rw [Entry.fetched.injEq] at heq
                exact ⟨heq.2.2.1, heq.2.2.2⟩
              · simp [Entry.tells] at htells
          · rw [Dict.get_set_of_ne hkey, h.mirrors]
            refine ⟨fun hkept => Or.inr ⟨decide_eq_false (Ne.symm hkey), hkept⟩, ?_⟩
            rintro (⟨r', asked, heq, rfl⟩ | ⟨-, hkept⟩)
            · rw [Entry.fetched.injEq] at heq
              exact absurd (congrArg Request.cacheKey heq.1).symm hkey
            · exact hkept

/-- Clearing keeps it sound. -/
theorem Fetcher.Sound.step {s : Fetcher Row} (h : s.Sound defaultTtlSeconds markets)
    (event : Event Row) :
    (s.step defaultTtlSeconds markets event).Sound defaultTtlSeconds markets := by
  cases event with
  | call id r now => exact h.call id r now
  | answer id now candles => exact h.answer id now candles
  | clearCache =>
      refine ⟨fun key t candles => iff_of_false (by simp [Fetcher.step]) ?_,
        h.justified.snoc trivial⟩
      rw [Fetcher.step, kept_concat]
      rintro (⟨r, asked, heq, -⟩ | ⟨htells, -⟩)
      · simp at heq
      · simp [Entry.tells] at htells

/-- The fetcher after some events. -/
def after (defaultTtlSeconds : ℚ) (markets : List Text) (events : List (Event Row)) :
    Fetcher Row :=
  run (Fetcher.step defaultTtlSeconds markets) Fetcher.new events

/-- Every fetcher is sound. -/
theorem sound_after (events : List (Event Row)) :
    (after defaultTtlSeconds markets events).Sound defaultTtlSeconds markets := by
  induction events using List.reverseRecOn with
  | nil =>
      refine ⟨fun key t candles => iff_of_false (by simp [after, Fetcher.new]) ?_, Throughout.nil⟩
      rintro ⟨before, r, asked, after, hlast⟩
      exact not_lastAt_nil hlast
  | append_singleton events event ih =>
      rw [after, run_concat]
      exact ih.step event

/-! ## Arguments of the calls -/

/-- The call of an entry. -/
def Entry.request : Entry Row → Option Request
  | .hit r _ _ | .fetched r _ _ _ | .failed r _ => some r
  | .cleared => none

/-- The call of an event. -/
def Event.request : Event Row → Option Request
  | .call _ r _ => some r
  | .answer _ _ _ | .clearCache => none

/-- No timeframe of a call has a colon. -/
structure Fetcher.Plain (s : Fetcher Row) : Prop where
  waiting : ∀ item ∈ s.waiting, ':' ∉ item.2.timeframe
  logged : ∀ e ∈ s.log, ∀ r, e.request = some r → ':' ∉ r.timeframe

/-- An entry with such a call. -/
theorem Fetcher.Plain.log {s : Fetcher Row} (h : s.Plain) {e : Entry Row}
    (he : ∀ r, e.request = some r → ':' ∉ r.timeframe) :
    ∀ e' ∈ s.log ++ [e], ∀ r, e'.request = some r → ':' ∉ r.timeframe := by
  intro e' he'
  rcases List.mem_append.mp he' with hold | hnew
  · exact h.logged e' hold
  · rw [List.mem_singleton.mp hnew]
    exact he

/-- One event with such a call, if it is one. -/
theorem Fetcher.Plain.step {s : Fetcher Row} (h : s.Plain) {event : Event Row}
    (hevent : ∀ r, event.request = some r → ':' ∉ r.timeframe) :
    (s.step defaultTtlSeconds markets event).Plain := by
  cases event with
  | call id r now =>
      have hr : ':' ∉ r.timeframe := hevent r rfl
      have hwaits : ∀ item ∈ s.waiting.set id r, ':' ∉ item.2.timeframe := by
        intro item hitem
        rcases Dict.mem_set hitem with rfl | hold
        · exact hr
        · exact h.waiting item hold
      rw [Fetcher.step, Fetcher.call]
      cases s.cache.get r.cacheKey with
      | none => exact ⟨hwaits, h.logged⟩
      | some kept =>
          dsimp only
          split_ifs
          · exact ⟨h.waiting, h.log fun r' hr' => Option.some.inj hr' ▸ hr⟩
          · exact ⟨hwaits, h.logged⟩
  | answer id now candles =>
      rw [Fetcher.step, Fetcher.answer]
      cases hwaiting : s.waiting.get id with
      | none => exact h
      | some r =>
          have hr : ':' ∉ r.timeframe := h.waiting _ (Dict.mem_of_get hwaiting)
          have hwaits : ∀ item ∈ s.waiting.pop id, ':' ∉ item.2.timeframe :=
            fun item hitem => h.waiting item (List.mem_of_mem_filter hitem)
          cases candles with
          | none => exact ⟨hwaits, h.log fun r' hr' => Option.some.inj hr' ▸ hr⟩
          | some candles => exact ⟨hwaits, h.log fun r' hr' => Option.some.inj hr' ▸ hr⟩
  | clearCache => exact ⟨h.waiting, h.log fun r' hr' => by simp [Entry.request] at hr'⟩

/-- A fetcher whose callers name timeframes without colons. -/
theorem plain_after {events : List (Event Row)}
    (hplain : ∀ event ∈ events, ∀ r, event.request = some r → ':' ∉ r.timeframe) :
    (after defaultTtlSeconds markets events).Plain := by
  induction events using List.reverseRecOn with
  | nil => exact ⟨by simp [after, Fetcher.new], by simp [after, Fetcher.new]⟩
  | append_singleton events event ih =>
      rw [after, run_concat]
      exact (ih fun e he => hplain e (List.mem_append_left _ he)).step
        (hplain event (List.mem_append_right _ List.mem_cons_self))

/-- The exchange answered these candles to a call with the same arguments, for the market that
is listed for the symbol. -/
def Answered (markets : List Text) (log : List (Entry Row)) (r : Request) (now : ℚ)
    (candles : List Row) : Prop :=
  ∃ r', r'.symbol = r.symbol ∧ r'.timeframe = r.timeframe ∧ r'.limit = r.limit ∧
    .fetched r' (target markets r.symbol) now candles ∈ log

/-- What is kept was answered. -/
theorem answered_of_kept {log : List (Entry Row)}
    (hjustified : Throughout (Justified defaultTtlSeconds markets) log)
    (hlog : ∀ e ∈ log, ∀ r, e.request = some r → ':' ∉ r.timeframe) {r : Request}
    (hr : ':' ∉ r.timeframe) {now : ℚ} {candles : List Row}
    (h : Kept log r.cacheKey now candles) : Answered markets log r now candles := by
  rcases h with ⟨before, r', asked, after, hlast⟩
  have hmem : .fetched r' asked now candles ∈ log := by
    rw [hlast.split]
    exact List.mem_append_right before List.mem_cons_self
  rcases cacheKey_inj (hlog _ hmem r' rfl) hr (of_decide_eq_true hlast.picked) with
    ⟨hsymbol, htimeframe, hlimit⟩
  have hasked : asked = target markets r'.symbol := hjustified _ _ _ hlast.split
  refine ⟨r', hsymbol, htimeframe, hlimit, ?_⟩
  rw [← hsymbol, ← hasked]
  exact hmem

/-- Where the candles of an entry come from, by the arguments of the calls. -/
def ServedFrom (defaultTtlSeconds : ℚ) (markets : List Text) (log : List (Entry Row)) :
    Entry Row → Prop
  | .hit r now candles =>
      ∃ cachedTime, Kept log r.cacheKey cachedTime candles ∧
        Answered markets log r cachedTime candles ∧ now - cachedTime < r.ttl defaultTtlSeconds
  | .failed r candles =>
      (∃ cachedTime, Kept log r.cacheKey cachedTime candles ∧
        Answered markets log r cachedTime candles) ∨
        (candles = [] ∧ ∀ cachedTime other, ¬ Kept log r.cacheKey cachedTime other)
  | .fetched r asked _ _ => asked = target markets r.symbol
  | .cleared => True

/-- However the calls interleave, a caller that is served from the cache gets what the exchange
last answered to a call with the same arguments, less than its time to live ago, and one whose
call fails gets the last such answer, however old, or nothing if there is none since the cache
was cleared. -/
theorem served_justified {events : List (Event Row)}
    (hplain : ∀ event ∈ events, ∀ r, event.request = some r → ':' ∉ r.timeframe) :
    Throughout (ServedFrom defaultTtlSeconds markets)
      (after defaultTtlSeconds markets events).log := by
  have hjustified : Throughout (Justified defaultTtlSeconds markets)
      (after defaultTtlSeconds markets events).log := (sound_after events).justified
  have hlogged : ∀ e ∈ (after defaultTtlSeconds markets events).log, ∀ r, e.request = some r →
      ':' ∉ r.timeframe := (plain_after hplain).logged
  intro before e after hsplit
  rw [hsplit] at hjustified hlogged
  have hbefore : Throughout (Justified defaultTtlSeconds markets) before := by
    intro front e' back hfront
    refine hjustified front e' (back ++ e :: after) ?_
    rw [hfront, List.append_assoc, List.cons_append]
  have hlog : ∀ e' ∈ before, ∀ r, e'.request = some r → ':' ∉ r.timeframe :=
    fun e' he' => hlogged e' (List.mem_append_left _ he')
  have hplain' := hlogged e (List.mem_append_right before List.mem_cons_self)
  have he := hjustified before e after rfl
  cases e with
  | hit r now candles =>
      rcases he with ⟨cachedTime, hkept, hfresh⟩
      exact ⟨cachedTime, hkept, answered_of_kept hbefore hlog (hplain' r rfl) hkept, hfresh⟩
  | failed r candles =>
      rcases he with ⟨cachedTime, hkept⟩ | hnone
      · exact Or.inl ⟨cachedTime, hkept, answered_of_kept hbefore hlog (hplain' r rfl) hkept⟩
      · exact Or.inr hnone
  | fetched r asked now candles => exact he
  | cleared => trivial

/-- Hourly candles of one symbol. -/
def hourly : Request :=
  ⟨['B', 'T', 'C'], ['1', 'h'], 200, none⟩

/-- One answer, a hit, and a failure behind the time to live. -/
def outage : List (Event ℚ) :=
  [.call 0 hourly 0, .answer 0 1 (some [100]), .call 1 hourly 200, .call 2 hourly 400,
    .answer 2 401 none]

/-- The hit and the failed call get the answer. -/
theorem served_justified_outage :
    Answered [] [.fetched hourly ['B', 'T', 'C'] 1 [100]] hourly 1 [(100 : ℚ)] := by
  have hplain : ∀ event ∈ outage, ∀ r, event.request = some r → ':' ∉ r.timeframe := by
    simp [outage, Event.request, hourly]
  have hlog : (after 300 [] outage).log =
      [.fetched hourly ['B', 'T', 'C'] 1 [100]] ++ .hit hourly 200 [100] ::
        [.failed hourly [100]] := by decide +kernel
  have hhit := served_justified hplain _ _ _ hlog
  rcases hhit with ⟨cachedTime, -, ⟨r, hsymbol, htimeframe, hlimit, hmem⟩, -⟩
  have hfetched := List.mem_singleton.mp hmem
  rw [Entry.fetched.injEq] at hfetched
  exact ⟨r, hsymbol, htimeframe, hlimit, by rw [hfetched.1]; exact List.mem_singleton_self _⟩

end OhlcvFetcher
end Karsa
