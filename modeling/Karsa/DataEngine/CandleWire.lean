import Karsa.Alpha.Answers
import Karsa.Consumer.CandleBuffer
import Karsa.Foundations.JsonText

/-!
# Data engine - Candles on the wire

`RedisPublisher.publish_candle` flattens the symbol into the channel name and writes the prices
of a candle as texts of `Decimal`s into a JSON payload.  `MarketConsumer._process_message` reads
the channel with a regular expression, splits the quote off the symbol again, and converts the
texts to floats.

How `repr` writes a float is a parameter; the digits of other scripts are a parameter of `float`
and `Decimal`.  Numbers are compared by value, so that an integer may come back as a float.

Main results:

- Theorem `normalizeSymbol_flat`: the quote is split off again.
- Theorem `decodeMessage_publishCandle`: what the consumer makes of a published candle.
- Theorem `candle_recovered`: the candles that come back as they were, and distinct channels.
-/

namespace Karsa
namespace CandleWire

open Alpha (asciiTables)
open MarketFeed (parseChannel normalizeSymbol)

/-! ## Raw candles -/

/-- A number in the list that ccxt returns. -/
inductive RawNumber where
  | int (n : ℤ)
  | float (x : PyFloat)
deriving Repr, DecidableEq

/-- The five numbers behind the timestamp of a candle. -/
structure Prices (α : Type) where
  opening : α
  high : α
  low : α
  close : α
  volume : α
deriving Repr, DecidableEq

/-- Convert the numbers one after the other; `none` if one conversion raises. -/
def Prices.convert {α β : Type} (f : α → Option β) (p : Prices α) : Option (Prices β) :=
  (f p.opening).bind fun opening =>
    (f p.high).bind fun high =>
      (f p.low).bind fun low =>
        (f p.close).bind fun close =>
          (f p.volume).map fun volume => ⟨opening, high, low, close, volume⟩

/-- All five numbers have a property. -/
def Prices.Every {α : Type} (P : α → Prop) (p : Prices α) : Prop :=
  P p.opening ∧ P p.high ∧ P p.low ∧ P p.close ∧ P p.volume

/-- A candle of ccxt. -/
structure RawCandle where
  ts : RawNumber
  prices : Prices RawNumber
deriving Repr, DecidableEq

/-- A candle as the consumer rebuilds it. -/
structure WireCandle where
  ts : ℤ
  prices : Prices PyFloat
deriving Repr, DecidableEq

/-- A candle with the parts of its channel. -/
structure WireMessage where
  exchange : Text
  symbol : Text
  timeframe : Text
  candle : WireCandle
deriving Repr, DecidableEq

/-! ## Publishing -/

/-- `int(x)`; `none` stands for the exception of a float that is not finite. -/
def RawNumber.toInt : RawNumber → Option ℤ
  | .int n => some n
  | .float (.finite x) => some (PyFloat.truncate x)
  | .float .nan | .float (.infinity _) => none

section Publisher

variable (u : UnicodeTables) (repr : ℚ → Json.FloatLiteral)

/-- `str(x)`. -/
def RawNumber.str : RawNumber → Option Text
  | .int n => strInt n
  | .float .nan => some "nan".toList
  | .float (.infinity negative) => some (if negative then "-inf".toList else "inf".toList)
  | .float (.finite x) => some ((repr x).toText 'e')

/-- `str(Decimal(str(x)))`. -/
def decimalField (x : RawNumber) : Option Text :=
  (x.str repr).bind fun s => (decimalOf u s).map decimalText

/-- The members of the payload. -/
def payloadMembers (exchange symbol timeframe : Text) (ts : ℤ) (prices : Prices Text) :
    List (Text × Json) :=
  [("exchange".toList, .str exchange), ("symbol".toList, .str symbol),
    ("timeframe".toList, .str timeframe), ("ts".toList, .int ts),
    ("open".toList, .str prices.opening), ("high".toList, .str prices.high),
    ("low".toList, .str prices.low), ("close".toList, .str prices.close),
    ("volume".toList, .str prices.volume)]

/-- `_normalize_ohlcv`. -/
def normalizeOhlcv (candle : RawCandle) (symbol timeframe exchange : Text) : Option Json :=
  candle.ts.toInt.bind fun ts =>
    (candle.prices.convert (decimalField u repr)).map fun prices =>
      .dict (payloadMembers exchange symbol timeframe ts prices)

/-- `_CHANNEL_TEMPLATE`. -/
def channelName (exchange symbol timeframe : Text) : Text :=
  "karsa:candles:".toList ++ exchange ++ ':' :: (symbol.without '/' ++ ':' :: timeframe)

/-- `publish_candle`: the channel and the payload; `none` if it raises. -/
def publishCandle (exchange symbol timeframe : Text) (candle : RawCandle) : Option (Text × Text) :=
  (normalizeOhlcv u repr candle symbol timeframe exchange).bind fun payload =>
    (Json.dumps repr payload).map fun data => (channelName exchange symbol timeframe, data)

end Publisher

/-! ## Receiving -/

section Consumer

variable (u : UnicodeTables)

/-- `int(value)` of a decoded value. -/
def jsonInt : Json → Option ℤ
  | .int n => some n
  | .bool b => some (if b then 1 else 0)
  | .float x => (RawNumber.float x).toInt
  | .str s => parseInt u s
  | .null | .list _ | .dict _ => none

/-- `float(n)`: an integer that is too large raises `OverflowError`. -/
def intFloat (n : ℤ) : Option PyFloat :=
  match PyFloat.ofRat n with
  | .finite x => some (.finite x)
  | _ => none

/-- `float(value)` of a decoded value. -/
def jsonFloat : Json → Option PyFloat
  | .int n => intFloat n
  | .bool b => some (.finite (if b then 1 else 0))
  | .float x => some x
  | .str s => parseFloat u s
  | .null | .list _ | .dict _ => none

/-- `payload[key]`. -/
def member (payload : Json) (key : Text) : Option Json :=
  match payload with
  | .dict items => Dict.get key items
  | _ => none

/-- The candle that is rebuilt from a payload. -/
def rebuildCandle (payload : Json) : Option WireCandle :=
  ((member payload "ts".toList).bind (jsonInt u)).bind fun ts =>
    (Prices.convert (fun key => (member payload key).bind (jsonFloat u))
      ⟨"open".toList, "high".toList, "low".toList, "close".toList, "volume".toList⟩).map
        fun prices => ⟨ts, prices⟩

/-- `_process_message` up to the buffer. -/
def decodeMessage (depth : Nat) (channel data : Text) : Option WireMessage :=
  (parseChannel channel).bind fun (exchange, raw, timeframe) =>
    match Json.loads depth data with
    | .error _ => none
    | .ok payload =>
        (rebuildCandle u payload).map fun candle =>
          ⟨exchange, normalizeSymbol raw, timeframe, candle⟩

end Consumer

/-! ## Symbols and channels -/

/-- The quotes that `_normalize_symbol` tries. -/
def quotes : List Text :=
  ["USDT".toList, "USD".toList, "BTC".toList, "ETH".toList]

/-- Different quotes end in different letters. -/
theorem quotes_last : ∀ q ∈ quotes, ∀ quote ∈ quotes, q ≠ quote →
    q ≠ [] ∧ quote ≠ [] ∧ q.getLast? ≠ quote.getLast? := by
  decide

/-- Quotes are letters. -/
theorem quotes_plain : ∀ quote ∈ quotes, ':' ∉ quote ∧ '/' ∉ quote := by
  decide

/-- The only item with a property is found. -/
theorem find?_eq_some_of_unique {α : Type} {p : α → Bool} {l : List α} {a : α} (ha : a ∈ l)
    (hp : p a = true) (hother : ∀ b ∈ l, b ≠ a → p b = false) : l.find? p = some a := by
  cases hfind : l.find? p with
  | none => exact absurd hp (List.find?_eq_none.mp hfind a ha)
  | some b =>
      have hb : p b = true := List.find?_some hfind
      by_cases hba : b = a
      · rw [hba]
      · rw [hother b (List.mem_of_find?_eq_some hfind) hba] at hb
        cases hb

/-- Two suffixes of a text end alike. -/
theorem isSuffixOf_append_eq_false {q quote : Text} (hq : q ≠ []) (hquote : quote ≠ [])
    (hlast : q.getLast? ≠ quote.getLast?) (base : Text) :
    q.isSuffixOf (base ++ quote) = false := by
  rw [Bool.eq_false_iff]
  intro hsuffix
  rcases List.isSuffixOf_iff_suffix.mp hsuffix with ⟨front, hfront⟩
  have heq := congrArg List.getLast? hfront
  rw [List.getLast?_append_of_ne_nil _ hq, List.getLast?_append_of_ne_nil _ hquote] at heq
  exact hlast heq

/-- A unified symbol without its slash. -/
theorem without_slash {base quote : Text} (hbase : '/' ∉ base) (hquote : quote ∈ quotes) :
    Text.without '/' (base ++ '/' :: quote) = base ++ quote := by
  have hplain : Text.without '/' base = base := by
    rw [Text.without, List.filter_eq_self]
    intro c hc
    exact decide_eq_true fun h => hbase (h ▸ hc)
  have hkept : Text.without '/' ('/' :: quote) = quote := by
    revert quote
    decide
  rw [Text.without_append, hplain, hkept]

/-- The quote is split off again. -/
theorem normalizeSymbol_flat {base quote : Text} (hne : base ≠ []) (hbase : '/' ∉ base)
    (hquote : quote ∈ quotes) : normalizeSymbol (base ++ quote) = base ++ '/' :: quote := by
  have hslash : '/' ∉ base ++ quote := by
    rw [List.mem_append, not_or]
    exact ⟨hbase, (quotes_plain quote hquote).2⟩
  have hself : quote.isSuffixOf (base ++ quote) = true :=
    List.isSuffixOf_iff_suffix.mpr (List.suffix_append base quote)
  have hlength : quote.length < (base ++ quote).length := by
    rw [List.length_append]
    have hpos := List.length_pos_iff.mpr hne
    omega
  have hother : ∀ q ∈ quotes, q ≠ quote → q.isSuffixOf (base ++ quote) = false := by
    intro q hq hneq
    have hlast := quotes_last q hq quote hquote hneq
    exact isSuffixOf_append_eq_false hlast.1 hlast.2.1 hlast.2.2 base
  have hfind : quotes.find? (fun q => q.isSuffixOf (base ++ quote) &&
      decide (q.length < (base ++ quote).length)) = some quote := by
    refine find?_eq_some_of_unique hquote ?_ fun q hq hneq => ?_
    · rw [hself, decide_eq_true hlength]
      rfl
    · rw [hother q hq hneq]
      rfl
  unfold normalizeSymbol
  rw [if_neg hslash]
  unfold quotes at hfind
  rw [hfind]
  simp

/-- The parts of a channel name. -/
theorem splitOn_channelName {exchange symbol timeframe : Text} (hexchange : ':' ∉ exchange)
    (hsymbol : ':' ∉ symbol.without '/') (htimeframe : ':' ∉ timeframe) :
    (channelName exchange symbol timeframe).splitOn ':' =
      ["karsa".toList, "candles".toList, exchange, symbol.without '/', timeframe] := by
  have htext : channelName exchange symbol timeframe =
      "karsa".toList ++ ':' :: ("candles".toList ++ ':' ::
        (exchange ++ ':' :: (symbol.without '/' ++ ':' :: timeframe))) := rfl
  rw [htext, List.splitOn_append_cons_self_of_not_mem (by decide),
    List.splitOn_append_cons_self_of_not_mem (by decide),
    List.splitOn_append_cons_self_of_not_mem hexchange,
    List.splitOn_append_cons_self_of_not_mem hsymbol, List.splitOn_eq_singleton htimeframe]

/-- A channel is read if none of its parts is empty. -/
theorem parseChannel_channelName {exchange symbol timeframe : Text} (hexchange : ':' ∉ exchange)
    (hsymbol : ':' ∉ symbol.without '/') (htimeframe : ':' ∉ timeframe)
    (hne : symbol.without '/' ≠ []) :
    parseChannel (channelName exchange symbol timeframe) =
      if exchange = [] ∨ timeframe = [] then none
      else some (exchange, symbol.without '/', timeframe) := by
  unfold parseChannel
  rw [splitOn_channelName hexchange hsymbol htimeframe]
  by_cases hempty : exchange = [] ∨ timeframe = []
  · rw [if_pos hempty]
    dsimp only
    rw [if_neg]
    rintro ⟨-, -, hex, -, htf⟩
    rcases hempty with h | h
    · exact hex h
    · exact htf h
  · rw [if_neg hempty]
    rw [not_or] at hempty
    dsimp only
    rw [if_pos ⟨rfl, rfl, hempty.1, hne, hempty.2⟩]

/-- A unified symbol with one of the quotes, an exchange and a timeframe. -/
structure Route where
  base : Text
  quote : Text
  exchange : Text
  timeframe : Text
  base_ne : base ≠ []
  base_plain : '/' ∉ base ∧ ':' ∉ base
  quote_mem : quote ∈ quotes
  exchange_plain : ':' ∉ exchange
  timeframe_plain : ':' ∉ timeframe

namespace Route

/-- The unified symbol. -/
def symbol (r : Route) : Text :=
  r.base ++ '/' :: r.quote

/-- The channel of the route. -/
def channel (r : Route) : Text :=
  channelName r.exchange r.symbol r.timeframe

variable (r : Route)

/-- The symbol without its slash. -/
theorem flat : r.symbol.without '/' = r.base ++ r.quote :=
  without_slash r.base_plain.1 r.quote_mem

/-- There is no colon in it. -/
theorem flat_plain : ':' ∉ r.symbol.without '/' := by
  rw [flat, List.mem_append, not_or]
  exact ⟨r.base_plain.2, (quotes_plain r.quote r.quote_mem).1⟩

/-- It is split into the same symbol again. -/
theorem normalizeSymbol_flat : normalizeSymbol (r.symbol.without '/') = r.symbol := by
  rw [flat]
  exact CandleWire.normalizeSymbol_flat r.base_ne r.base_plain.1 r.quote_mem

/-- The channel of a route is read if exchange and timeframe are not empty. -/
theorem parseChannel_channel :
    parseChannel r.channel =
      if r.exchange = [] ∨ r.timeframe = [] then none
      else some (r.exchange, r.symbol.without '/', r.timeframe) :=
  parseChannel_channelName r.exchange_plain r.flat_plain r.timeframe_plain
    (by rw [flat]; simp [r.base_ne])

/-- Routes with the same channel agree. -/
theorem eq_of_channel_eq {r other : Route} (h : r.channel = other.channel) :
    r.exchange = other.exchange ∧ r.symbol = other.symbol ∧ r.timeframe = other.timeframe := by
  have hsplit := splitOn_channelName r.exchange_plain r.flat_plain r.timeframe_plain
  have hother := splitOn_channelName other.exchange_plain other.flat_plain other.timeframe_plain
  unfold channel at h
  rw [← h, hsplit] at hother
  simp only [List.cons.injEq, true_and, and_true] at hother
  rcases hother with ⟨hexchange, hflat, htimeframe⟩
  refine ⟨hexchange, ?_, htimeframe⟩
  rw [← r.normalizeSymbol_flat, hflat, other.normalizeSymbol_flat]

end Route

/-! ## Numbers -/

section Numbers

variable (u : UnicodeTables) (repr : ℚ → Json.FloatLiteral)

/-- The float that arrives for a number: an integer is rounded, one of too many digits is
never published. -/
def RawNumber.arrival : RawNumber → Option PyFloat
  | .int n => if (natDigits n.natAbs).length ≤ maxStrDigits then some (.ofRat n) else none
  | .float x => some x

/-- `repr` keeps the float. -/
def Kept : RawNumber → Prop
  | .float (.finite x) => PyFloat.ofRat (repr x).value = .finite x
  | .float .nan | .float (.infinity _) | .int _ => True

/-- A literal survives `Decimal` and `float`. -/
theorem decimalOf_toText_parse (l : Literal) :
    ((decimalOf u (l.toText 'e')).map decimalText).bind (parseFloat u) =
      some (.ofRat l.value) := by
  rw [decimalOf_toText u (Or.inl rfl), Option.map_some, Option.bind_some, parseFloat_decimalText]
  rfl

/-- The value of an integer as a literal. -/
theorem value_intLiteral (n : ℤ) : (Json.intLiteral n).value = n := by
  unfold Literal.value decimalValue Literal.exponentValue
  simp only [Json.intLiteral, List.append_nil, digitsValue_natDigits, List.length_nil,
    Nat.cast_zero, sub_zero, zpow_zero, mul_one, Nat.cast_natAbs, decide_eq_true_eq]
  split_ifs with hn
  · rw [abs_of_neg hn]
    push_cast
    ring
  · rw [abs_of_nonneg (not_lt.mp hn)]

/-- What a number becomes on its way. -/
theorem decimalField_parse {x : RawNumber} (hx : Kept repr x) :
    (decimalField u repr x).bind (parseFloat u) = x.arrival := by
  cases x with
  | int n =>
      unfold decimalField
      rw [RawNumber.str, RawNumber.arrival, strInt]
      split_ifs with hn
      · rw [Option.bind_some, Json.intText_eq 'e', decimalOf_toText_parse, value_intLiteral]
      · rfl
  | float x =>
      cases x with
      | nan =>
          unfold decimalField
          rw [RawNumber.str, Option.bind_some,
            decimalOf_of_plain u (List.all_eq_true.mp (by decide))]
          exact parseFloat_decimalText u .nan
      | infinity negative =>
          unfold decimalField
          cases negative with
          | false =>
              rw [RawNumber.str, Option.bind_some,
            decimalOf_of_plain u (List.all_eq_true.mp (by decide))]
              exact parseFloat_decimalText u (.infinity false)
          | true =>
              rw [RawNumber.str, Option.bind_some,
            decimalOf_of_plain u (List.all_eq_true.mp (by decide))]
              exact parseFloat_decimalText u (.infinity true)
      | finite x =>
          unfold decimalField
          rw [RawNumber.str, Option.bind_some, decimalOf_toText_parse]
          exact congrArg some hx

end Numbers

/-- A conversion succeeds if all five do. -/
theorem Prices.convert_eq_some_iff {α β : Type} {f : α → Option β} {p : Prices α}
    {q : Prices β} :
    p.convert f = some q ↔
      f p.opening = some q.opening ∧ f p.high = some q.high ∧ f p.low = some q.low ∧
        f p.close = some q.close ∧ f p.volume = some q.volume := by
  unfold Prices.convert
  simp only [Option.bind_eq_some_iff, Option.map_eq_some_iff]
  constructor
  · rintro ⟨opening, ho, high, hh, low, hl, close, hc, volume, hv, rfl⟩
    exact ⟨ho, hh, hl, hc, hv⟩
  · rintro ⟨ho, hh, hl, hc, hv⟩
    exact ⟨_, ho, _, hh, _, hl, _, hc, _, hv, rfl⟩

/-- Two conversions in a row. -/
theorem Prices.convert_bind {α β γ : Type} (f : α → Option β) (g : β → Option γ) (p : Prices α) :
    (p.convert f).bind (Prices.convert g) = p.convert fun a => (f a).bind g := by
  ext r
  rw [Option.bind_eq_some_iff, Prices.convert_eq_some_iff]
  simp only [Prices.convert_eq_some_iff, Option.bind_eq_some_iff]
  constructor
  · rintro ⟨q, ⟨ho, hh, hl, hc, hv⟩, ho', hh', hl', hc', hv'⟩
    exact ⟨⟨_, ho, ho'⟩, ⟨_, hh, hh'⟩, ⟨_, hl, hl'⟩, ⟨_, hc, hc'⟩, ⟨_, hv, hv'⟩⟩
  · rintro ⟨⟨o, ho, ho'⟩, ⟨h, hh, hh'⟩, ⟨l, hl, hl'⟩, ⟨c, hc, hc'⟩, ⟨v, hv, hv'⟩⟩
    exact ⟨⟨o, h, l, c, v⟩, ⟨ho, hh, hl, hc, hv⟩, ho', hh', hl', hc', hv'⟩

/-- Conversions that agree on the numbers. -/
theorem Prices.convert_congr {α β : Type} {f g : α → Option β} {p : Prices α}
    (h : p.Every fun a => f a = g a) : p.convert f = p.convert g := by
  rcases h with ⟨ho, hh, hl, hc, hv⟩
  unfold Prices.convert
  rw [ho, hh, hl, hc, hv]

/-! ## The round trip -/

section RoundTrip

variable {u : UnicodeTables} {repr : ℚ → Json.FloatLiteral} {depth : ℕ} {route : Route}
  {candle : RawCandle}

/-- The candle that arrives: a timestamp of too many digits is never published. -/
def RawCandle.arrival (candle : RawCandle) : Option WireCandle :=
  candle.ts.toInt.bind fun ts =>
    if (natDigits ts.natAbs).length ≤ maxStrDigits then
      (candle.prices.convert RawNumber.arrival).map fun prices => ⟨ts, prices⟩
    else none

/-- The fields of a payload are read back. -/
theorem rebuildCandle_payload (exchange symbol timeframe : Text) (ts : ℤ) (prices : Prices Text) :
    rebuildCandle u (.dict (payloadMembers exchange symbol timeframe ts prices)) =
      (prices.convert (parseFloat u)).map fun prices => ⟨ts, prices⟩ := by
  have hts : member (.dict (payloadMembers exchange symbol timeframe ts prices)) "ts".toList =
      some (.int ts) := by
    simp [member, payloadMembers, Dict.get]
  unfold rebuildCandle
  rw [hts]
  simp [Prices.convert, member, payloadMembers, Dict.get, jsonInt, jsonFloat]

/-- A payload is written unless its timestamp has too many digits, and read back. -/
theorem dumps_payload (exchange symbol timeframe : Text) (ts : ℤ) (prices : Prices Text) :
    (Json.dumps repr (.dict (payloadMembers exchange symbol timeframe ts prices))).map
        (Json.loads (depth + 1)) =
      if (natDigits ts.natAbs).length ≤ maxStrDigits then
        some (.ok (.dict (payloadMembers exchange symbol timeframe ts prices)))
      else none := by
  split_ifs with hts
  · have hreadable : Json.Readable repr (depth + 1)
        (.dict (payloadMembers exchange symbol timeframe ts prices)) := by
      refine ⟨by simp only [Dict.keys, payloadMembers, List.map_cons, List.map_nil]; decide, ?_⟩
      simp only [payloadMembers, List.forall_mem_cons, List.not_mem_nil, false_imp_iff,
        implies_true, and_true]
      have hstr : ∀ s, Json.Readable repr depth (.str s) := fun s =>
        Json.LeafReadable.readable (v := .str s) trivial depth
      have hint : Json.Readable repr depth (.int ts) :=
        Json.LeafReadable.readable (v := .int ts) hts depth
      exact ⟨hstr _, hstr _, hstr _, hint, hstr _, hstr _, hstr _, hstr _, hstr _⟩
    rcases Json.loads_dumps hreadable with ⟨text, hdumps, hloads⟩
    rw [hdumps, Option.map_some, hloads]
  · have hfits :
        Json.fits (.dict (payloadMembers exchange symbol timeframe ts prices)) = false := by
      simp [Json.fits, payloadMembers, Json.membersFit, hts]
    rw [Json.dumps, hfits]
    rfl

/-- What the consumer makes of a published candle. -/
theorem decodeMessage_publishCandle (hkept : candle.prices.Every (Kept repr)) :
    ((publishCandle u repr route.exchange route.symbol route.timeframe candle).bind fun m =>
        decodeMessage u (depth + 1) m.1 m.2) =
      if route.exchange = [] ∨ route.timeframe = [] then none
      else candle.arrival.map fun c => ⟨route.exchange, route.symbol, route.timeframe, c⟩ := by
  have hfields : (candle.prices.convert (decimalField u repr)).bind
      (Prices.convert (parseFloat u)) = candle.prices.convert RawNumber.arrival := by
    rw [Prices.convert_bind]
    rcases hkept with ⟨ho, hh, hl, hc, hv⟩
    exact Prices.convert_congr ⟨decimalField_parse u repr ho, decimalField_parse u repr hh,
      decimalField_parse u repr hl, decimalField_parse u repr hc, decimalField_parse u repr hv⟩
  have hchannel := route.parseChannel_channel
  unfold Route.channel at hchannel
  unfold publishCandle normalizeOhlcv RawCandle.arrival
  cases hts : candle.ts.toInt with
  | none => simp
  | some ts =>
      cases htexts : candle.prices.convert (decimalField u repr) with
      | none =>
          rw [htexts] at hfields
          rw [← hfields]
          simp
      | some texts =>
          rw [htexts, Option.bind_some] at hfields
          have hdumps := @dumps_payload repr depth route.exchange route.symbol route.timeframe
            ts texts
          rw [Option.bind_some, Option.map_some, Option.bind_some, Option.bind_some]
          by_cases hdigits : (natDigits ts.natAbs).length ≤ maxStrDigits
          · rw [if_pos hdigits, Option.map_eq_some_iff] at hdumps
            rcases hdumps with ⟨data, hdata, hloads⟩
            rw [hdata, Option.map_some, Option.bind_some, decodeMessage, hchannel, if_pos hdigits,
              ← hfields]
            by_cases hempty : route.exchange = [] ∨ route.timeframe = []
            · rw [if_pos hempty, if_pos hempty]
              rfl
            · rw [if_neg hempty, if_neg hempty, Option.bind_some]
              dsimp only
              rw [hloads, route.normalizeSymbol_flat]
              dsimp only
              rw [rebuildCandle_payload]
          · rw [if_neg hdigits, Option.map_eq_none_iff] at hdumps
            rw [hdumps, if_neg hdigits]
            simp

/-! ## What is recovered -/

/-- The value of a number. -/
def RawNumber.value : RawNumber → PyFloat
  | .int n => .finite n
  | .float x => x

/-- The same candle: an integer may have become a float, and the other way round. -/
def WireCandle.Same (received : WireCandle) (sent : RawCandle) : Prop :=
  PyFloat.finite received.ts = sent.ts.value ∧
    received.prices.opening = sent.prices.opening.value ∧
    received.prices.high = sent.prices.high.value ∧
    received.prices.low = sent.prices.low.value ∧
    received.prices.close = sent.prices.close.value ∧
    received.prices.volume = sent.prices.volume.value

/-- A candle that is published on a route is received as it was sent. -/
def Recovers (u : UnicodeTables) (repr : ℚ → Json.FloatLiteral) (depth : ℕ) (route : Route)
    (candle : RawCandle) : Prop :=
  ∃ channel data received,
    publishCandle u repr route.exchange route.symbol route.timeframe candle =
      some (channel, data) ∧
    decodeMessage u depth channel data = some received ∧
    received.exchange = route.exchange ∧ received.symbol = route.symbol ∧
    received.timeframe = route.timeframe ∧ received.candle.Same candle

/-- An integral timestamp of no more digits than Python writes. -/
def RawNumber.Whole : RawNumber → Prop
  | .int n => (natDigits n.natAbs).length ≤ maxStrDigits
  | .float (.finite x) =>
      (PyFloat.truncate x : ℚ) = x ∧
        (natDigits (PyFloat.truncate x).natAbs).length ≤ maxStrDigits
  | .float .nan | .float (.infinity _) => False

/-- A number that a float holds exactly. -/
def RawNumber.Representable : RawNumber → Prop
  | .int n => PyFloat.ofRat n = .finite n
  | .float _ => True

/-- A bound on an integer as a rational number. -/
theorem natAbs_lt_two_pow {n : ℤ} {k : ℕ} (h : |(n : ℚ)| < 2 ^ k) : n.natAbs < 2 ^ k := by
  rw [← Int.cast_abs, Int.abs_eq_natAbs, Int.cast_natCast] at h
  exact_mod_cast h

/-- An integer that a float holds has few digits. -/
theorem length_natDigits_of_ofRat {n : ℤ} (h : PyFloat.ofRat n = .finite n) :
    (natDigits n.natAbs).length ≤ maxStrDigits := by
  have hsmall : n.natAbs < 10 ^ maxStrDigits := by
    unfold PyFloat.ofRat at h
    dsimp only at h
    split_ifs at h with hbig
    rw [PyFloat.finite.injEq] at h
    rw [h, not_le] at hbig
    have hpow : ∀ {k m : ℕ}, k ≤ m → 2 ^ k ≤ 10 ^ m := fun {k m} hkm =>
      (Nat.pow_le_pow_left (by norm_num) k).trans (Nat.pow_le_pow_right (by norm_num) hkm)
    exact (natAbs_lt_two_pow hbig).trans_le (hpow (by decide))
  unfold natDigits
  split_ifs with hzero
  · decide
  · rw [List.length_reverse]
    exact (Nat.digits_length_le_iff (by norm_num) _).mpr hsmall

/-- A price arrives as it is if a float holds it. -/
theorem arrival_eq_value_iff (x : RawNumber) :
    x.arrival = some x.value ↔ x.Representable := by
  cases x with
  | float x => exact ⟨fun _ => trivial, fun _ => rfl⟩
  | int n =>
      rw [RawNumber.arrival, RawNumber.value, RawNumber.Representable]
      constructor
      · intro h
        split_ifs at h
        exact Option.some.inj h
      · intro h
        rw [if_pos (length_natDigits_of_ofRat h), h]

/-- A timestamp is integral if `int` does not change it. -/
theorem toInt_whole {x : RawNumber} {ts : ℤ} (h : x.toInt = some ts) :
    x.Whole ↔ PyFloat.finite ts = x.value ∧ (natDigits ts.natAbs).length ≤ maxStrDigits := by
  cases x with
  | int n =>
      have hts : n = ts := Option.some.inj h
      subst hts
      exact ⟨fun hwhole => ⟨rfl, hwhole⟩, fun hboth => hboth.2⟩
  | float x =>
      cases x with
      | nan => cases h
      | infinity negative => cases h
      | finite x =>
          have hts : PyFloat.truncate x = ts := Option.some.inj h
          subst hts
          rw [RawNumber.Whole, RawNumber.value, PyFloat.finite.injEq]

/-- An integral timestamp is converted. -/
theorem toInt_of_whole {x : RawNumber} (h : x.Whole) : ∃ ts, x.toInt = some ts := by
  cases x with
  | int n => exact ⟨n, rfl⟩
  | float x =>
      cases x with
      | nan => exact h.elim
      | infinity negative => exact h.elim
      | finite x => exact ⟨_, rfl⟩

/-- The candle arrives as it is. -/
theorem arrival_same_iff (candle : RawCandle) :
    (∃ received, candle.arrival = some received ∧ received.Same candle) ↔
      candle.ts.Whole ∧ candle.prices.Every RawNumber.Representable := by
  have hprice : ∀ {x : RawNumber} {y : PyFloat}, x.arrival = some y → y = x.value →
      x.Representable := fun harrival hvalue => (arrival_eq_value_iff _).mp (hvalue ▸ harrival)
  unfold RawCandle.arrival
  constructor
  · rintro ⟨received, harrival, hts, ho, hh, hl, hc, hv⟩
    rcases Option.bind_eq_some_iff.mp harrival with ⟨ts, hint, hrest⟩
    split_ifs at hrest with hdigits
    rcases Option.map_eq_some_iff.mp hrest with ⟨prices, hprices, hreceived⟩
    subst hreceived
    rcases Prices.convert_eq_some_iff.mp hprices with ⟨ao, ah, al, ac, av⟩
    refine ⟨?_, hprice ao ho, hprice ah hh, hprice al hl, hprice ac hc, hprice av hv⟩
    exact (toInt_whole hint).mpr ⟨hts, hdigits⟩
  · rintro ⟨hwhole, ho, hh, hl, hc, hv⟩
    rcases toInt_of_whole hwhole with ⟨ts, hint⟩
    have hts := (toInt_whole hint).mp hwhole
    let arrived : Prices PyFloat :=
      ⟨candle.prices.opening.value, candle.prices.high.value, candle.prices.low.value,
        candle.prices.close.value, candle.prices.volume.value⟩
    have hprices : candle.prices.convert RawNumber.arrival = some arrived :=
      Prices.convert_eq_some_iff.mpr
        ⟨(arrival_eq_value_iff _).mpr ho, (arrival_eq_value_iff _).mpr hh,
          (arrival_eq_value_iff _).mpr hl, (arrival_eq_value_iff _).mpr hc,
          (arrival_eq_value_iff _).mpr hv⟩
    refine ⟨⟨ts, arrived⟩, ?_, hts.1, rfl, rfl, rfl, rfl, rfl⟩
    rw [hint, Option.bind_some, if_pos hts.2, hprices, Option.map_some]

/-- The routes and candles that are recovered. -/
theorem recovers_iff (hkept : candle.prices.Every (Kept repr)) :
    Recovers u repr (depth + 1) route candle ↔
      route.exchange ≠ [] ∧ route.timeframe ≠ [] ∧ candle.ts.Whole ∧
        candle.prices.Every RawNumber.Representable := by
  have hdecode := @decodeMessage_publishCandle u repr depth route candle hkept
  rw [← arrival_same_iff]
  constructor
  · rintro ⟨channel, data, received, hpublish, hreceived, -, -, -, hsame⟩
    rw [hpublish, Option.bind_some, hreceived] at hdecode
    by_cases hempty : route.exchange = [] ∨ route.timeframe = []
    · rw [if_pos hempty] at hdecode
      cases hdecode
    · rw [if_neg hempty, eq_comm, Option.map_eq_some_iff] at hdecode
      rcases hdecode with ⟨c, hc, hmessage⟩
      rw [not_or] at hempty
      subst hmessage
      exact ⟨hempty.1, hempty.2, c, hc, hsame⟩
  · rintro ⟨hexchange, htimeframe, c, hc, hsame⟩
    rw [if_neg (not_or.mpr ⟨hexchange, htimeframe⟩), hc, Option.map_some,
      Option.bind_eq_some_iff] at hdecode
    rcases hdecode with ⟨message, hpublish, hreceived⟩
    exact ⟨message.1, message.2, _, hpublish, hreceived, rfl, rfl, rfl, hsame⟩

/-- A candle comes back as it was exactly if exchange and timeframe have names, its timestamp is
integral and floats hold its prices; and routes never share a channel. -/
theorem candle_recovered (u : UnicodeTables) (repr : ℚ → Json.FloatLiteral) (depth : ℕ)
    (route : Route) (candle : RawCandle) (hkept : candle.prices.Every (Kept repr)) :
    (Recovers u repr (depth + 1) route candle ↔
      route.exchange ≠ [] ∧ route.timeframe ≠ [] ∧ candle.ts.Whole ∧
        candle.prices.Every RawNumber.Representable) ∧
      ∀ other : Route, route.channel = other.channel →
        route.exchange = other.exchange ∧ route.symbol = other.symbol ∧
          route.timeframe = other.timeframe :=
  ⟨recovers_iff hkept, fun _ hchannel => Route.eq_of_channel_eq hchannel⟩

end RoundTrip

/-- How `repr` writes one and a half. -/
def oneAndHalf : Json.FloatLiteral :=
  .point false [1] [5] rfl

/-- Bitcoin on an exchange of the given name. -/
def bitcoinRoute (exchange : Text) (h : ':' ∉ exchange) : Route where
  base := "BTC".toList
  quote := "USDT".toList
  exchange := exchange
  timeframe := "1h".toList
  base_ne := by decide
  base_plain := by decide
  quote_mem := by decide
  exchange_plain := h
  timeframe_plain := by decide

/-- A candle of floats but for its volume. -/
def flatCandle (volume : ℤ) : RawCandle where
  ts := .int 1700000000000
  prices :=
    { opening := .float (.finite (3 / 2))
      high := .float (.finite (3 / 2))
      low := .float (.finite (3 / 2))
      close := .float (.finite (3 / 2))
      volume := .int volume }

/-- The floats of the candle are kept. -/
theorem flatCandle_kept (volume : ℤ) :
    (flatCandle volume).prices.Every (Kept fun _ => oneAndHalf) := by
  have hfloat : PyFloat.ofRat oneAndHalf.value = .finite (3 / 2) := by decide +kernel
  exact ⟨hfloat, hfloat, hfloat, hfloat, trivial⟩

/-- An exchange without a name is not read, and an integer beyond the floats is rounded. -/
theorem candle_not_recovered :
    ¬ Recovers asciiTables (fun _ => oneAndHalf) 1 (bitcoinRoute [] (by decide)) (flatCandle 7) ∧
      ¬ Recovers asciiTables (fun _ => oneAndHalf) 1 (bitcoinRoute "bybit".toList (by decide))
        (flatCandle 9007199254740993) := by
  constructor
  · intro h
    exact ((recovers_iff (flatCandle_kept 7)).mp h).1 rfl
  · intro h
    have hvolume : PyFloat.ofRat (9007199254740993 : ℤ) = .finite (9007199254740993 : ℤ) :=
      ((recovers_iff (flatCandle_kept 9007199254740993)).mp h).2.2.2.2.2.2.2
    exact absurd hvolume (by decide +kernel)

/-- An ordinary candle comes back as it was. -/
theorem candle_recovered_bitcoin :
    Recovers asciiTables (fun _ => oneAndHalf) 1 (bitcoinRoute "bybit".toList (by decide))
      (flatCandle 7) := by
  have hts : (natDigits 1700000000000).length ≤ maxStrDigits := by decide +kernel
  have hvolume : PyFloat.ofRat (7 : ℤ) = .finite (7 : ℤ) := by decide +kernel
  exact (candle_recovered asciiTables (fun _ => oneAndHalf) 0 _ _ (flatCandle_kept 7)).1.mpr
    ⟨by decide, by decide, hts, trivial, trivial, trivial, trivial, hvolume⟩

end CandleWire
end Karsa
