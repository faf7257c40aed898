import Codeflux.Domain.Identity

/-!
# Money, tokens, forecasts and task budgets

Exact money is a count of minor units in one currency. Usage and forecasts say which of their
figures are known, and carry zeros for those that are not.
-/

namespace Codeflux.Domain

open Library Go

/-- A currency code. The source converts any string to one, so it has to be parsed to be known
canonical. -/
abbrev CurrencyCode := String

/-- Parse a currency code. -/
def parseCurrencyCode (raw : String) : Result CurrencyCode := do
  let reason := Failure.value "currency" "must contain exactly three uppercase letters"
  ensure (byteLength raw = 3) reason
  ensure (raw.toList.all fun character => 'A' ≤ character && character ≤ 'Z') reason
  return raw

theorem parseCurrencyCode_ok {raw code : String} (h : parseCurrencyCode raw = .ok code) :
    code = raw := by
  simp only [parseCurrencyCode, run_ok_iff] at h
  obtain ⟨_, _, _, _, rfl⟩ := h
  rfl

/-- An exact signed count of currency minor units. -/
structure Money where
  currency : CurrencyCode := ""
  minorUnits : Int := 0
deriving DecidableEq

/-- Check an amount. -/
def Money.validate (value : Money) : Result Unit :=
  match parseCurrencyCode value.currency with
  | .ok parsed =>
    ensure (parsed = value.currency) (.value "money.currency" "must be a canonical currency code")
  | .error _ => .error (.value "money.currency" "must be a canonical currency code")

/-- A value of exact money, checked. -/
def newMoney (currency : CurrencyCode) (minorUnits : Int) : Result Money := do
  let value : Money := { currency, minorUnits }
  value.validate
  return value

theorem Money.validate_ok_iff {value : Money} {u : Unit} :
    value.validate = .ok u ↔ parseCurrencyCode value.currency = .ok value.currency := by
  unfold Money.validate
  split
  · next parsed hparsed =>
    have hsame := parseCurrencyCode_ok hparsed
    simp [hparsed, hsame]
  · next failure hfailure => simp [hfailure]

theorem newMoney_of_valid {value : Money} (h : value.validate = .ok ()) :
    newMoney value.currency value.minorUnits = .ok value := by
  simp [newMoney, h]

/-- A count of tokens. -/
abbrev TokenCount := UInt64

/-- The token categories a provider reports. The provider's own categories are a map, kept as its
list of entries. -/
structure TokenUsage where
  known : Bool := false
  input : TokenCount := 0
  cachedInput : TokenCount := 0
  cacheWrite : TokenCount := 0
  output : TokenCount := 0
  reasoning : TokenCount := 0
  providerSpecific : List (String × TokenCount) := []
deriving DecidableEq

/-- Check a usage. -/
def TokenUsage.validate (value : TokenUsage) : Result Unit :=
  if value.known = false then
    ensure (value.input = 0 ∧ value.cachedInput = 0 ∧ value.cacheWrite = 0 ∧ value.output = 0 ∧
        value.reasoning = 0 ∧ value.providerSpecific = [])
      (.value "token_usage" "unknown usage must not carry numeric values")
  else
    ensure (∀ entry ∈ value.providerSpecific, trimSpace entry.1 ≠ "")
      (.value "token_usage.provider_specific" "category names must not be blank")

/-- Warning and hard-stop thresholds of one task, and the maxima of its operations. -/
structure TaskBudget where
  id : BudgetID
  (warningCost hardStopCost : Money)
  (warningTokens hardStopTokens : TokenCount)
  (warningWallClock hardStopWallClock : Int)
  (maximumProviderCalls maximumRepairRounds maximumToolExecutions : UInt32)

/-- Check a budget. -/
def TaskBudget.validate (value : TaskBudget) : Result Unit := do
  ensure (value.id.isZero = false) (.value "budget.id" "must not be empty")
  ensure (value.warningCost.validate = .ok ())
    (.value "budget.warning_cost" "must contain valid exact money")
  ensure (value.hardStopCost.validate = .ok ())
    (.value "budget.hard_stop_cost" "must contain valid exact money")
  ensure (value.warningCost.currency = value.hardStopCost.currency)
    (.value "budget.cost" "warning and hard stop must use the same currency")
  ensure (0 ≤ value.warningCost.minorUnits ∧ 0 ≤ value.hardStopCost.minorUnits)
    (.value "budget.cost" "thresholds must not be negative")
  ensure (value.warningCost.minorUnits ≤ value.hardStopCost.minorUnits)
    (.value "budget.cost" "warning must not exceed hard stop")
  ensure (value.warningTokens ≤ value.hardStopTokens)
    (.value "budget.tokens" "warning must not exceed hard stop")
  ensure (0 ≤ value.warningWallClock ∧ 0 ≤ value.hardStopWallClock)
    (.value "budget.wall_clock" "thresholds must not be negative")
  ensure (value.warningWallClock ≤ value.hardStopWallClock)
    (.value "budget.wall_clock" "warning must not exceed hard stop")

/-- Estimates at the median and the ninetieth percentile. -/
structure ForecastRange where
  latencyKnown : Bool := false
  latencyP50Millis : Int := 0
  latencyP90Millis : Int := 0
  tokensKnown : Bool := false
  tokensP50 : TokenCount := 0
  tokensP90 : TokenCount := 0
  costKnown : Bool := false
  costP50 : Money := {}
  costP90 : Money := {}
deriving DecidableEq

/-- The estimates of the categories that are known. -/
def ForecastRange.validateKnown (value : ForecastRange) : Result Unit := do
  ensure (value.latencyKnown → 0 ≤ value.latencyP50Millis ∧ 0 ≤ value.latencyP90Millis)
    (.value "forecast.latency" "values must not be negative")
  ensure (value.latencyKnown → value.latencyP50Millis ≤ value.latencyP90Millis)
    (.value "forecast.latency" "P50 must not exceed P90")
  ensure (value.tokensKnown → value.tokensP50 ≤ value.tokensP90)
    (.value "forecast.tokens" "P50 must not exceed P90")
  ensure (value.costKnown → value.costP50.validate = .ok () ∧ value.costP90.validate = .ok ())
    (.value "forecast.cost" "values must contain valid exact money")
  ensure (value.costKnown → value.costP50.currency = value.costP90.currency)
    (.value "forecast.cost" "P50 and P90 must use the same currency")
  ensure (value.costKnown → 0 ≤ value.costP50.minorUnits ∧ 0 ≤ value.costP90.minorUnits)
    (.value "forecast.cost" "values must not be negative")
  ensure (value.costKnown → value.costP50.minorUnits ≤ value.costP90.minorUnits)
    (.value "forecast.cost" "P50 must not exceed P90")

/-- Check a forecast. -/
def ForecastRange.validate (value : ForecastRange) : Result Unit := do
  ensure (value.latencyKnown = false → value.latencyP50Millis = 0 ∧ value.latencyP90Millis = 0)
    (.value "forecast.latency" "unknown values must not carry estimates")
  ensure (value.tokensKnown = false → value.tokensP50 = 0 ∧ value.tokensP90 = 0)
    (.value "forecast.tokens" "unknown values must not carry estimates")
  ensure (value.costKnown = false → value.costP50 = {} ∧ value.costP90 = {})
    (.value "forecast.cost" "unknown values must not carry estimates")
  if value.latencyKnown = false ∧ value.tokensKnown = false ∧ value.costKnown = false then
    return ()
  value.validateKnown

end Codeflux.Domain
