import Karsa.Consumer.LiveSignal
import Karsa.Foundations.Decimal
import Karsa.Foundations.JsonText

/-!
# Regime keys - Writers and readers of the market regime

The regime of the market is kept under `system:config:regime`, the regime of a symbol under a key
of its own.  `RedisClient` writes a bare name under either; the loop of `RegimeClassifier` writes a
JSON object under the first.  The names come from two classifiers with different vocabularies.

How `repr` writes a float and how deep JSON may be nested are parameters.

Main results:

- Theorem `get_run`: what the store holds under a key after a run of writes.
- Theorem `answer_eq`: what each reader answers, by the write that applies.
- Theorem `regime_faithful_iff`: the runs after which a reader answers the regime written.
-/

namespace Karsa
namespace RegimeKeys

open Live (MarketRegime)

/-! ## Names of regimes -/

/-- The regimes of `RegimeEngine`. -/
def engineRegimes : List Text :=
  ["TREND_BULL".toList, "TREND_BEAR".toList, "MEAN_REVERSION".toList, "CHOP".toList]

/-- The members of `MarketRegime`, the regimes of `RegimeClassifier`. -/
def marketRegimes : List MarketRegime :=
  [.TREND_BULL, .TREND_BEAR, .HYPER_BULL, .HYPER_BEAR, .RANGE, .CHOP, .SNIPER]

/-- A name that one of the classifiers gives to a regime. -/
structure RegimeName where
  text : Text
  named : text ∈ engineRegimes ++ marketRegimes.map MarketRegime.value

/-- `MarketRegime(raw)`; `none` is its `ValueError`. -/
def parseRegime (raw : Text) : Option MarketRegime :=
  marketRegimes.find? fun regime => regime.value = raw

/-- A member is found by its value. -/
theorem parseRegime_value (regime : MarketRegime) : parseRegime regime.value = some regime := by
  cases regime <;> decide

/-- A member that is found has the value asked for. -/
theorem parseRegime_eq_some {raw : Text} {regime : MarketRegime}
    (h : parseRegime raw = some regime) : regime.value = raw := by
  simpa using List.find?_some h

/-- The members are found by their values, and by nothing else. -/
theorem parseRegime_isSome_iff (raw : Text) :
    (∃ regime, parseRegime raw = some regime) ↔ raw ∈ marketRegimes.map MarketRegime.value := by
  constructor
  · rintro ⟨regime, h⟩
    exact List.mem_map.mpr ⟨regime, List.mem_of_find?_eq_some h, parseRegime_eq_some h⟩
  · intro h
    rcases List.mem_map.mp h with ⟨regime, -, rfl⟩
    exact ⟨regime, parseRegime_value regime⟩

/-! ## Writers -/

/-- The keys that hold a text. -/
abbrev Store := Dict Text Text

/-- The key of the market's regime. -/
def configKey : Text := "system:config:regime".toList

/-- The key of a symbol's regime. -/
def symbolKey (symbol : Text) : Text :=
  "system:regime:".toList ++ symbol.map fun c => if c = '/' then ':' else c

/-- What the classification loop has found. -/
structure Classification where
  regime : MarketRegime
  conviction : PyFloat
  adx : PyFloat
  hurst : PyFloat
  atrPct : PyFloat

/-- The object that the loop encodes. -/
def Classification.payload (c : Classification) : Json :=
  .dict [("regime".toList, .str c.regime.value),
    ("conviction".toList, .float (PyFloat.roundTo 3 c.conviction)),
    ("adx".toList, .float (PyFloat.roundTo 2 c.adx)),
    ("hurst".toList, .float (PyFloat.roundTo 3 c.hurst)),
    ("atr_pct".toList, .float (PyFloat.roundTo 1 c.atrPct))]

/-- `set_session_config`. -/
def setSessionConfig (regime : Text) (store : Store) : Store :=
  store.set configKey regime

/-- `set_symbol_regime`. -/
def setSymbolRegime (symbol regime : Text) (store : Store) : Store :=
  store.set (symbolKey symbol) regime

section Encoding

variable (repr : ℚ → Json.FloatLiteral)

/-- A pass of `run_classification_loop`; nothing is written where the encoder raises. -/
def publishClassification (c : Classification) (store : Store) : Store :=
  match Json.dumps repr c.payload with
  | none => store
  | some text => store.set configKey text

/-- A write of one of the three writers. -/
inductive RegimeWrite where
  | sessionConfig (regime : RegimeName)
  | symbolRegime (symbol : Text) (regime : RegimeName)
  | classification (c : Classification)

/-- The store behind a write. -/
def step (store : Store) : RegimeWrite → Store
  | .sessionConfig regime => setSessionConfig regime.text store
  | .symbolRegime symbol regime => setSymbolRegime symbol regime.text store
  | .classification c => publishClassification repr c store

/-- The store behind a sequence of writes. -/
def run (writes : List RegimeWrite) : Store :=
  writes.foldl (step repr) []

end Encoding

/-! ## Readers -/

/-- The regime of a decoded object; `none` is the exception of a value without one. -/
def regimeOf : Json → Option MarketRegime
  | .dict items =>
      match Dict.get "regime".toList items with
      | some (.str raw) => parseRegime raw
      | _ => none
  | _ => none

/-- The body of `get_current_regime`'s `try`; `none` is an exception. -/
def readRegime (depth : ℕ) (store : Store) (symbol : Text) : Option MarketRegime :=
  match store.get (symbolKey symbol) with
  | some raw => parseRegime raw
  | none =>
      match store.get configKey with
      | none => some .CHOP
      | some raw =>
          match Json.loads depth raw with
          | .error _ => none
          | .ok data => regimeOf data

/-- `get_current_regime`. -/
def getCurrentRegime (depth : ℕ) (redis : Option Store) (symbol : Text) : MarketRegime :=
  match redis with
  | none => .CHOP
  | some store => (readRegime depth store symbol).getD .CHOP

/-- `get_session_config`. -/
def getSessionConfig (redis : Option Store) : Except Text (Option Text) :=
  match redis with
  | none => .error "Redis not connected".toList
  | some store => .ok (store.get configKey)

/-- `get_symbol_regime`. -/
def getSymbolRegime (redis : Option Store) (symbol : Text) : Except Text (Option Text) :=
  match redis with
  | none => .ok none
  | some store =>
      match store.get (symbolKey symbol) with
      | none => getSessionConfig (some store)
      | some result => .ok (some result)

/-- The readers. -/
inductive Reader where
  | currentRegime
  | sessionConfig
  | symbolRegime

/-- The name of the regime that a reader returns. -/
def Reader.answer (depth : ℕ) (store : Store) (symbol : Text) : Reader → Option Text
  | .currentRegime => some (getCurrentRegime depth (some store) symbol).value
  | .sessionConfig => (getSessionConfig (some store)).toOption.join
  | .symbolRegime => (getSymbolRegime (some store) symbol).toOption.join

/-! ## The write that applies -/

/-- The key of a write. -/
def RegimeWrite.key : RegimeWrite → Text
  | .sessionConfig _ | .classification _ => configKey
  | .symbolRegime symbol _ => symbolKey symbol

/-- The regime of a write. -/
def RegimeWrite.regime : RegimeWrite → Text
  | .sessionConfig regime | .symbolRegime _ regime => regime.text
  | .classification c => c.regime.value

/-- The last write under a key. -/
def lastUnder (key : Text) (writes : List RegimeWrite) : Option RegimeWrite :=
  (writes.filter fun w => decide (w.key = key)).getLast?

/-- The last write that applies: a symbol's own regime goes before the market's. -/
def applicable (writes : List RegimeWrite) (symbol : Text) : Reader → Option RegimeWrite
  | .sessionConfig => lastUnder configKey writes
  | .currentRegime | .symbolRegime =>
      (lastUnder (symbolKey symbol) writes).or (lastUnder configKey writes)

/-- A reader returns the regime of the last write that applies. -/
def Faithful (repr : ℚ → Json.FloatLiteral) (depth : ℕ) (writes : List RegimeWrite)
    (symbol : Text) (reader : Reader) : Prop :=
  ∀ w, applicable writes symbol reader = some w →
    reader.answer depth (run repr writes) symbol = some w.regime

/-- Which reader understands which write: `get_current_regime` takes the market's regime from an
object only, and takes everything else for `CHOP`; `RedisClient` decodes nothing. -/
def Understood : Reader → RegimeWrite → Prop
  | .currentRegime, .sessionConfig regime => regime.text = MarketRegime.CHOP.value
  | .currentRegime, .symbolRegime _ regime =>
      regime.text ∈ marketRegimes.map MarketRegime.value
  | .currentRegime, .classification _ => True
  | .sessionConfig, .classification _ | .symbolRegime, .classification _ => False
  | .sessionConfig, .sessionConfig _ | .sessionConfig, .symbolRegime _ _ => True
  | .symbolRegime, .sessionConfig _ | .symbolRegime, .symbolRegime _ _ => True

/-- `repr` keeps the floats of an object. -/
def RegimeWrite.Kept (repr : ℚ → Json.FloatLiteral) : RegimeWrite → Prop
  | .classification c =>
      ∀ x ∈ [PyFloat.roundTo 3 c.conviction, PyFloat.roundTo 2 c.adx, PyFloat.roundTo 3 c.hurst,
        PyFloat.roundTo 1 c.atrPct], Json.LeafReadable repr (.float x)
  | .sessionConfig _ | .symbolRegime _ _ => True

/-! ## What the store holds -/

/-- The market's key is no symbol's. -/
theorem symbolKey_ne_configKey (symbol : Text) : symbolKey symbol ≠ configKey := by
  intro h
  have hfront := congrArg (List.take 8) h
  unfold symbolKey configKey at hfront
  rw [List.take_append_of_le_length (by decide)] at hfront
  exact absurd hfront (by decide)

section Store

variable {repr : ℚ → Json.FloatLiteral} {depth : ℕ} {writes : List RegimeWrite}

/-- The text of a write. -/
def RegimeWrite.text (repr : ℚ → Json.FloatLiteral) : RegimeWrite → Text
  | .sessionConfig regime | .symbolRegime _ regime => regime.text
  | .classification c => Json.write repr c.payload

/-- The encoder does not raise: there is no integer in the object. -/
theorem dumps_payload (c : Classification) :
    Json.dumps repr c.payload = some (Json.write repr c.payload) := by
  rw [Json.dumps, if_pos]
  rfl

/-- Every write leaves its text under its key. -/
theorem step_eq (store : Store) (w : RegimeWrite) :
    step repr store w = store.set w.key (w.text repr) := by
  cases w with
  | sessionConfig regime => rfl
  | symbolRegime symbol regime => rfl
  | classification c =>
      rw [step, publishClassification, dumps_payload]
      rfl

/-- A key holds the text of the last write under it. -/
theorem get_run (writes : List RegimeWrite) (key : Text) :
    (run repr writes).get key = (lastUnder key writes).map (RegimeWrite.text repr) := by
  have hrun : run repr writes = (writes.map fun w => (w.key, w.text repr)).foldl
      (fun (d : Store) item => d.set item.1 item.2) [] := by
    rw [run, List.foldl_map]
    exact congrArg (fun f => writes.foldl f []) (funext fun d => funext fun w => step_eq d w)
  rw [hrun, Dict.get_foldl_set, Dict.get_nil, Option.or_none, List.filter_map, lastUnder,
    List.getLast?_map, Option.map_map]
  rfl

/-- The last write under a key is a write, and under that key. -/
theorem lastUnder_spec {key : Text} {w : RegimeWrite} (h : lastUnder key writes = some w) :
    w ∈ writes ∧ w.key = key := by
  simpa using List.mem_filter.mp (List.mem_of_getLast? h)

/-- An object is read back. -/
theorem loads_payload {c : Classification} (hkept : (RegimeWrite.classification c).Kept repr) :
    Json.loads (depth + 1) (Json.write repr c.payload) = .ok c.payload := by
  have hreadable : Json.Readable repr (depth + 1) c.payload := by
    refine ⟨by simp only [Dict.keys, List.map_cons, List.map_nil]; decide, ?_⟩
    simp only [RegimeWrite.Kept, List.forall_mem_cons, List.not_mem_nil, false_imp_iff,
      implies_true, and_true] at hkept
    rcases hkept with ⟨hconviction, hadx, hhurst, hatr⟩
    simp only [List.forall_mem_cons, List.not_mem_nil, false_imp_iff, implies_true, and_true]
    have hregime : Json.LeafReadable repr (.str c.regime.value) := trivial
    exact ⟨hregime.readable depth, hconviction.readable depth, hadx.readable depth,
      hhurst.readable depth, hatr.readable depth⟩
  rcases Json.loads_dumps hreadable with ⟨text, hdumps, hloads⟩
  rw [dumps_payload, Option.some_inj] at hdumps
  rw [hdumps, hloads]

/-- The regime of an object. -/
theorem regimeOf_payload (c : Classification) : regimeOf c.payload = some c.regime :=
  parseRegime_value c.regime

/-- A bare name is no JSON. -/
theorem loads_name (name : RegimeName) : ∃ e, Json.loads depth name.text = .error e := by
  have hall : ∀ text ∈ engineRegimes ++ marketRegimes.map MarketRegime.value,
      Json.loads depth text = .error .decode := by
    simp only [engineRegimes, marketRegimes, List.map_cons, List.map_nil, List.cons_append,
      List.nil_append, List.forall_mem_cons]
    cases depth with
    | zero => exact ⟨rfl, rfl, rfl, rfl, rfl, rfl, rfl, rfl, rfl, rfl, rfl, by simp⟩
    | succ depth => exact ⟨rfl, rfl, rfl, rfl, rfl, rfl, rfl, rfl, rfl, rfl, rfl, by simp⟩
  exact ⟨_, hall name.text name.named⟩

/-- An object is no name. -/
theorem write_payload_ne_name (c : Classification) (name : RegimeName) :
    Json.write repr c.payload ≠ name.text := by
  have hall : ∀ text ∈ engineRegimes ++ marketRegimes.map MarketRegime.value,
      text.head? ≠ some '{' := by
    decide
  intro h
  apply hall name.text name.named
  rw [← h]
  rfl

/-! ## What the readers answer -/

/-- What a reader makes of a write. -/
def heard (repr : ℚ → Json.FloatLiteral) : Reader → RegimeWrite → Text
  | .currentRegime, .sessionConfig _ => MarketRegime.CHOP.value
  | .currentRegime, .symbolRegime _ regime => ((parseRegime regime.text).getD .CHOP).value
  | .currentRegime, .classification c => c.regime.value
  | .sessionConfig, w | .symbolRegime, w => w.text repr

/-- The regime of a symbol as `get_current_regime` reads it. -/
theorem getCurrentRegime_run (hkept : ∀ w ∈ writes, w.Kept repr) {symbol : Text} {w : RegimeWrite}
    (h : applicable writes symbol .currentRegime = some w) :
    (getCurrentRegime (depth + 1) (some (run repr writes)) symbol).value =
      heard repr .currentRegime w := by
  unfold getCurrentRegime
  dsimp only
  unfold readRegime
  rw [get_run, get_run]
  cases hown : lastUnder (symbolKey symbol) writes with
  | some own =>
      rw [applicable, hown, Option.some_or, Option.some_inj] at h
      subst h
      have hkey := (lastUnder_spec hown).2
      cases own with
      | symbolRegime other regime => rfl
      | sessionConfig regime => exact absurd hkey.symm (symbolKey_ne_configKey symbol)
      | classification c => exact absurd hkey.symm (symbolKey_ne_configKey symbol)
  | none =>
      rw [applicable, hown, Option.none_or] at h
      have hspec := lastUnder_spec h
      rw [h]
      cases w with
      | symbolRegime other regime => exact absurd hspec.2 (symbolKey_ne_configKey other)
      | sessionConfig regime =>
          rcases @loads_name (depth + 1) regime with ⟨e, herror⟩
          simp only [Option.map_none, Option.map_some, RegimeWrite.text, herror]
          rfl
      | classification c =>
          simp only [Option.map_none, Option.map_some, RegimeWrite.text,
            loads_payload (hkept _ hspec.1), regimeOf_payload, Option.getD_some, heard]

/-- Every reader answers what it makes of the write that applies. -/
theorem answer_eq (hkept : ∀ w ∈ writes, w.Kept repr) {symbol : Text} {reader : Reader}
    {w : RegimeWrite} (h : applicable writes symbol reader = some w) :
    reader.answer (depth + 1) (run repr writes) symbol = some (heard repr reader w) := by
  cases reader with
  | currentRegime => rw [Reader.answer, getCurrentRegime_run hkept h]
  | sessionConfig =>
      rw [applicable] at h
      rw [Reader.answer, getSessionConfig, get_run, h]
      rfl
  | symbolRegime =>
      rw [Reader.answer, getSymbolRegime, getSessionConfig, get_run, get_run]
      cases hown : lastUnder (symbolKey symbol) writes with
      | some own =>
          rw [applicable, hown, Option.some_or] at h
          exact congrArg (Option.map (RegimeWrite.text repr)) h
      | none =>
          rw [applicable, hown, Option.none_or] at h
          rw [h]
          rfl

/-- A reader makes of a write the regime that was written exactly if it understands it. -/
theorem heard_eq_iff (reader : Reader) (w : RegimeWrite) :
    heard repr reader w = w.regime ↔ Understood reader w := by
  have hobject : ∀ c, Json.write repr (Classification.payload c) ≠ c.regime.value := by
    intro c
    have hnamed : c.regime.value ∈ engineRegimes ++ marketRegimes.map MarketRegime.value := by
      cases c.regime <;> decide
    exact write_payload_ne_name c ⟨c.regime.value, hnamed⟩
  cases reader with
  | currentRegime =>
      cases w with
      | sessionConfig regime => exact eq_comm
      | classification c => exact iff_of_true rfl trivial
      | symbolRegime symbol regime =>
          rw [Understood, ← parseRegime_isSome_iff, heard, RegimeWrite.regime]
          constructor
          · intro h
            exact ⟨_, h ▸ parseRegime_value _⟩
          · rintro ⟨member, hmember⟩
            rw [hmember, Option.getD_some, parseRegime_eq_some hmember]
  | sessionConfig =>
      cases w with
      | sessionConfig regime => exact iff_of_true rfl trivial
      | symbolRegime symbol regime => exact iff_of_true rfl trivial
      | classification c => exact iff_of_false (hobject c) id
  | symbolRegime =>
      cases w with
      | sessionConfig regime => exact iff_of_true rfl trivial
      | symbolRegime symbol regime => exact iff_of_true rfl trivial
      | classification c => exact iff_of_false (hobject c) id

/-- After any sequence of writes a reader answers the regime that was written last for the symbol
exactly if it understands that write. -/
theorem regime_faithful_iff (repr : ℚ → Json.FloatLiteral) (depth : ℕ)
    (writes : List RegimeWrite) (symbol : Text) (reader : Reader)
    (hkept : ∀ w ∈ writes, w.Kept repr) :
    Faithful repr (depth + 1) writes symbol reader ↔
      ∀ w, applicable writes symbol reader = some w → Understood reader w := by
  refine forall_congr' fun w => forall_congr' fun h => ?_
  rw [answer_eq hkept h, Option.some_inj, heard_eq_iff]

end Store

/-- How `repr` writes one half, or else thirty-two and a half. -/
def halvesRepr (x : ℚ) : Json.FloatLiteral :=
  if x = 1 / 2 then .point false [0] [5] rfl else .point false [3, 2] [5] rfl

/-- A rising market found by the loop. -/
def risingMarket : Classification where
  regime := .TREND_BULL
  conviction := .finite (1 / 2)
  adx := .finite (65 / 2)
  hurst := .finite (1 / 2)
  atrPct := .finite (65 / 2)

/-- The name that `RegimeEngine` gives to a rising market. -/
def trendBull : RegimeName where
  text := "TREND_BULL".toList
  named := by decide

/-- A rising market is read as choppy, and what the loop writes comes back as an object. -/
theorem regime_substituted :
    ¬ Faithful halvesRepr 1 [.sessionConfig trendBull] "BTC/USDT".toList .currentRegime ∧
      ¬ Faithful halvesRepr 1 [.classification risingMarket] "BTC/USDT".toList .sessionConfig := by
  constructor
  · intro h
    exact absurd (h _ rfl) (by decide +kernel)
  · intro h
    exact absurd (h _ rfl) (by decide +kernel)

/-- The loop's object goes over the engine's name, beside the name of one symbol. -/
def marketWrites : List RegimeWrite :=
  [.sessionConfig trendBull, .symbolRegime "ETH/USDT".toList trendBull,
    .classification risingMarket]

/-- The loop's object reaches `get_current_regime`, and `get_session_config` does not read it; a
symbol's own name goes before it.  Another name of the engine turns this round. -/
theorem regime_faithful_iff_marketWrites :
    (Faithful halvesRepr 1 marketWrites "BTC/USDT".toList .currentRegime ∧
        ¬ Faithful halvesRepr 1 marketWrites "BTC/USDT".toList .sessionConfig ∧
        Faithful halvesRepr 1 marketWrites "ETH/USDT".toList .symbolRegime) ∧
      ¬ Faithful halvesRepr 1 (marketWrites ++ [.sessionConfig trendBull]) "BTC/USDT".toList
          .currentRegime ∧
        Faithful halvesRepr 1 (marketWrites ++ [.sessionConfig trendBull]) "BTC/USDT".toList
          .sessionConfig := by
  have hkept : ∀ w ∈ marketWrites ++ [.sessionConfig trendBull], w.Kept halvesRepr := by
    have hhalf : PyFloat.roundTo 3 (.finite (1 / 2)) = .finite (1 / 2) := by decide +kernel
    have hadx : PyFloat.roundTo 2 (.finite (65 / 2)) = .finite (65 / 2) := by decide +kernel
    have hatr : PyFloat.roundTo 1 (.finite (65 / 2)) = .finite (65 / 2) := by decide +kernel
    have hlow : PyFloat.ofRat (halvesRepr (1 / 2)).value = .finite (1 / 2) := by decide +kernel
    have hhigh : PyFloat.ofRat (halvesRepr (65 / 2)).value = .finite (65 / 2) := by decide +kernel
    simp only [marketWrites, RegimeWrite.Kept, risingMarket, hhalf, hadx, hatr,
      List.forall_mem_cons, List.cons_append, List.nil_append, List.not_mem_nil, false_imp_iff,
      implies_true, and_true, true_and]
    exact ⟨hlow, hhigh, hlow, hhigh⟩
  have hfront : ∀ w ∈ marketWrites, w.Kept halvesRepr :=
    fun w hw => hkept w (List.mem_append_left _ hw)
  refine ⟨⟨?_, fun h => ?_, ?_⟩, fun h => ?_, ?_⟩
  · refine (regime_faithful_iff halvesRepr 0 _ _ _ hfront).mpr fun w hw => ?_
    rw [← Option.some_inj.mp hw]
    trivial
  · exact (regime_faithful_iff halvesRepr 0 _ _ _ hfront).mp h (.classification risingMarket) rfl
  · refine (regime_faithful_iff halvesRepr 0 _ _ _ hfront).mpr fun w hw => ?_
    rw [← Option.some_inj.mp hw]
    trivial
  · have hchop : trendBull.text = MarketRegime.CHOP.value :=
      (regime_faithful_iff halvesRepr 0 _ _ _ hkept).mp h (.sessionConfig trendBull) rfl
    exact absurd hchop (by decide)
  · refine (regime_faithful_iff halvesRepr 0 _ _ _ hkept).mpr fun w hw => ?_
    rw [← Option.some_inj.mp hw]
    trivial

end RegimeKeys
end Karsa
