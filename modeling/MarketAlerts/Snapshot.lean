import MarketAlerts.Json.Decode
import MarketAlerts.Json.Reader
import MarketAlerts.Instant.Rfc3339

/-!
# Market snapshots

A `Quote` holds the figures of one symbol; a `Snapshot` is a quote at a point in time. A feed
sends one JSON record a line, in which only symbol and price are required.
-/

namespace MarketAlerts

/-- The figures of one symbol: its price and those of the last day. -/
structure Quote where
  /-- The symbol that is traded. -/
  symbol : String
  /-- The price. -/
  price : Decimal
  /-- The volume of the last day. -/
  volume : Decimal := .zero
  /-- The change of the price over the last day. -/
  change : Decimal := .zero
  /-- The same change in percent. -/
  changePercent : Decimal := .zero
  /-- The highest price of the last day. -/
  high : Decimal := .zero
  /-- The lowest price of the last day. -/
  low : Decimal := .zero
deriving DecidableEq, Inhabited

/-- A quote at a point in time. -/
structure Snapshot extends Quote where
  /-- When the figures held. -/
  timestamp : Instant
deriving DecidableEq, Inhabited

namespace Quote

/-- A quote with only a price: the price is also the highest and the lowest of the day. -/
def ofPrice (symbol : String) (price : Decimal) : Quote :=
  { symbol, price, high := price, low := price }

/-- The quote at a point in time. -/
def atTime (q : Quote) (timestamp : Instant) : Snapshot := { toQuote := q, timestamp }

/-- The fields of a record of a quote and its time. -/
def fields : List String :=
  ["symbol", "price", "volume_24h", "change_24h", "change_percent_24h", "high_24h", "low_24h",
    "timestamp"]

/-- A quote and, if it is there, its time. -/
def ofJson? (v : Json) : Option (Quote × Option Instant) := do
  let r ← v.record? fields
  let figure (key : String) : Option Decimal := r.fieldOr? key .zero Json.decimal?
  let quote : Quote := {
    symbol := ← r.field? "symbol" Json.string?
    price := ← r.field? "price" Json.decimal?
    volume := ← figure "volume_24h"
    change := ← figure "change_24h"
    changePercent := ← figure "change_percent_24h"
    high := ← figure "high_24h"
    low := ← figure "low_24h" }
  let time ← r.fieldOr? "timestamp" none fun t =>
    (t.string?.bind Instant.ofLooseRfc3339?).map some
  return (quote, time)

/-- A line of a feed: a quote and, if it is there, its time. -/
def ofLine? (line : String) : Option (Quote × Option Instant) :=
  (Json.parse? line (.record fields)).bind ofJson?

end Quote

namespace Snapshot

/-- A snapshot whose time is `now` unless it has one. -/
def ofJson? (now : Instant) (v : Json) : Option Snapshot :=
  (Quote.ofJson? v).map fun (quote, time) => quote.atTime (time.getD now)

/-- A line of a feed; its time is `now` unless it has one. -/
def ofLine? (now : Instant) (line : String) : Option Snapshot :=
  (Quote.ofLine? line).map fun (quote, time) => quote.atTime (time.getD now)

end Snapshot

end MarketAlerts
