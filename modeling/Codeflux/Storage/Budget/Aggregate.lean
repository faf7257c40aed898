import Codeflux.Library.Sums
import Codeflux.Storage.Budget.Snapshot
import Mathlib.Data.UInt
import Mathlib.Tactic.Ring

/-!
# What a snapshot computes

A closed description of the loops that build a snapshot: which sums have to fit, and what the result
holds. A pending intent and the posting that settles it contribute the same *charge*.
-/

namespace Codeflux.Storage

open Library Go Domain List

variable {engine : Engine}

/-! ### Categories one by one -/

namespace CategorySnapshots

/-- The entry of a category. -/
def get (categories : CategorySnapshots) : BudgetCostCategory → BudgetCategorySnapshot
  | .model => categories.model
  | .tool => categories.tool
  | .infrastructure => categories.infrastructure

/-- Replace the entry of one category. -/
def set (categories : CategorySnapshots) (category : BudgetCostCategory)
    (item : BudgetCategorySnapshot) : CategorySnapshots :=
  match category with
  | .model => { categories with model := item }
  | .tool => { categories with tool := item }
  | .infrastructure => { categories with infrastructure := item }

@[simp] theorem get_set (categories : CategorySnapshots) (category c : BudgetCostCategory)
    (item : BudgetCategorySnapshot) :
    (categories.set category item).get c = if c = category then item else categories.get c := by
  cases category <;> cases c <;> rfl

theorem ext_get {a b : CategorySnapshots} (h : ∀ c, a.get c = b.get c) : a = b := by
  cases a
  cases b
  rw [mk.injEq]
  exact ⟨h .model, h .tool, h .infrastructure⟩

/-- Changing one category succeeds exactly when the change does, and leaves the others alone. -/
theorem modify_ok_iff {categories changed : CategorySnapshots} {category : BudgetCostCategory}
    {change : BudgetCategorySnapshot → Result BudgetCategorySnapshot} :
    categories.modify category change = .ok changed ↔
      ∀ c, if c = category then change (categories.get c) = .ok (changed.get c)
        else changed.get c = categories.get c := by
  constructor
  · intro h c
    cases category <;> simp only [modify, run_ok_iff] at h <;>
      obtain ⟨item, hitem, rfl⟩ := h <;> cases c <;> simp [get, hitem]
  · intro h
    have hm := h .model
    have ht := h .tool
    have hi := h .infrastructure
    cases changed
    cases category <;> simp [get] at hm ht hi <;> simp [modify, *]

/-- A loop that changes one category per row runs each category's rows on its own. -/
theorem foldlM_modify_ok_iff {α : Type} (category : α → BudgetCostCategory)
    (change : α → BudgetCategorySnapshot → Result BudgetCategorySnapshot) (rows : List α)
    (categories changed : CategorySnapshots) :
    rows.foldlM (fun categories row => categories.modify (category row) (change row))
        categories = .ok changed ↔
      ∀ c, (rows.filter fun row => decide (category row = c)).foldlM
        (fun item row => change row item) (categories.get c) = .ok (changed.get c) := by
  induction rows generalizing categories with
  | nil =>
    simp only [foldlM_nil, filter_nil, pure_ok_iff]
    exact ⟨fun h c => by rw [h], ext_get⟩
  | cons row rows ih =>
    simp only [foldlM_cons, bind_ok_iff, ih, modify_ok_iff]
    constructor
    · rintro ⟨mid, hmid, hrest⟩ c
      by_cases hc : category row = c
      · have := hmid c
        rw [if_pos hc.symm] at this
        simp only [filter_cons, hc, decide_true, if_true, foldlM_cons, bind_ok_iff]
        exact ⟨mid.get c, this, hrest c⟩
      · have := hmid c
        rw [if_neg (Ne.symm hc)] at this
        simpa [filter_cons, hc, ← this] using hrest c
    · intro h
      have hrow := h (category row)
      simp only [filter_cons, decide_true, if_true, foldlM_cons, bind_ok_iff] at hrow
      obtain ⟨item, hitem, hrest⟩ := hrow
      refine ⟨categories.set (category row) item, fun c => ?_, fun c => ?_⟩
      · by_cases hc : c = category row
        · subst hc
          simpa using hitem
        · simp [hc]
      · by_cases hc : c = category row
        · subst hc
          simpa using hrest
        · have := h c
          simpa [filter_cons, Ne.symm hc, hc] using this

end CategorySnapshots

/-! ### Charges -/

/-- What a pending intent or a posting adds to its category. -/
structure Charge where
  category : BudgetCostCategory
  slots : UInt64
  cost : StoredCost
  known : Option StoredCost
  chargedTokens : TokenCount
  actualTokens : Option TokenCount

/-- The charge of an intent. -/
def pendingCharge (row : IntentRow × ReservationRow) : Charge where
  category := row.2.category
  slots := countedSlots row.1.actualProviderCallSlots row.2.providerCallSlots
  cost := pendingCost row.1 row.2
  known := row.1.actualCost
  chargedTokens := row.1.actualTokens.getD (row.2.tokenBound.getD 0)
  actualTokens := row.1.actualTokens

/-- The charge of a posting. -/
def postedCharge (row : PostingRow × ReservationRow) : Charge where
  category := row.1.category
  slots := countedSlots row.1.actualProviderCallSlots row.2.providerCallSlots
  cost := row.1.chargedCost
  known := row.1.actualCost
  chargedTokens := row.1.chargedTokens.getD 0
  actualTokens := row.1.actualTokens

/-- A category with its costs read as rationals, but for the flag of pending reconciliation. -/
@[ext] structure CategoryView where
  (count slots : UInt64)
  (reserved charged known : ℚ)
  costUnknown : Bool
  (reservedTokens chargedTokens actualTokens : TokenCount)
  tokensUnknown : Bool

/-- The category, seen as sums. -/
def BudgetCategorySnapshot.view (item : BudgetCategorySnapshot) : CategoryView :=
  { item with
    count := item.reservationCount
    slots := item.providerCallSlots
    reserved := exactCostRat item.reservedCost
    charged := exactCostRat item.chargedCost
    known := exactCostRat item.actualKnownCost }

/-- The three costs of a category are in one currency. -/
structure BudgetCategorySnapshot.InCurrency (currency : CurrencyCode)
    (item : BudgetCategorySnapshot) : Prop where
  reserved : item.reservedCost.currency = currency
  charged : item.chargedCost.currency = currency
  known : item.actualKnownCost.currency = currency

namespace CategoryView

/-- Count an active reservation. -/
def reserve (view : CategoryView) (row : ReservationRow) : CategoryView :=
  { view with
    count := view.count + 1
    slots := view.slots + row.providerCallSlots.toUInt64
    reserved := view.reserved + exactCostRat row.costBound
    reservedTokens := view.reservedTokens + row.tokenBound.getD 0 }

/-- Count a charge. -/
def charge (view : CategoryView) (x : Charge) : CategoryView :=
  { view with
    count := view.count + 1
    slots := view.slots + x.slots
    charged := view.charged + exactCostRat x.cost
    known := view.known + (x.known.map exactCostRat).getD 0
    costUnknown := view.costUnknown || x.known.isNone
    chargedTokens := view.chargedTokens + x.chargedTokens
    actualTokens := view.actualTokens + x.actualTokens.getD 0
    tokensUnknown := view.tokensUnknown || x.actualTokens.isNone }

/-- The order in which charges are counted does not matter. -/
instance : RightCommutative charge where
  right_comm view x y := by
    ext1 <;> first | rfl | exact add_right_comm _ _ _ | exact Bool.or_right_comm _ _ _

section Folds

variable (view : CategoryView) (rows : List ReservationRow) (charges : List Charge)

theorem foldl_reserve :
    (rows.foldl reserve view).charged = view.charged ∧
      (rows.foldl reserve view).known = view.known ∧
      (rows.foldl reserve view).reserved =
        view.reserved + (rows.map fun row => exactCostRat row.costBound).sum := by
  induction rows generalizing view with
  | nil => simp
  | cons row rows ih => simp [ih, reserve, add_assoc]

theorem foldl_charge :
    (charges.foldl charge view).reserved = view.reserved ∧
      (charges.foldl charge view).charged =
        view.charged + (charges.map fun x => exactCostRat x.cost).sum ∧
      (charges.foldl charge view).known =
        view.known + ((charges.filterMap (·.known)).map exactCostRat).sum := by
  induction charges generalizing view with
  | nil => simp
  | cons x charges ih =>
    cases hk : x.known with
    | none | some cost => simp [ih, charge, hk, add_assoc]

end Folds

end CategoryView

open CategoryView

/-- The partial sums of the charged and of the known costs all fit their columns. -/
def ChargesFit (charged known : ℚ) (charges : List Charge) : Prop :=
  PartialSums Storable charged (charges.map fun x => exactCostRat x.cost) ∧
    PartialSums Storable known ((charges.filterMap (·.known)).map exactCostRat)

theorem chargesFit_append (charged known : ℚ) (xs ys : List Charge) :
    ChargesFit charged known (xs ++ ys) ↔
      ChargesFit charged known xs ∧
        ChargesFit (charged + (xs.map fun x => exactCostRat x.cost).sum)
          (known + ((xs.filterMap (·.known)).map exactCostRat).sum) ys := by
  simp only [ChargesFit, map_append, filterMap_append, Library.partialSums_append]
  tauto

theorem addExactCosts_succeeds_iff {left right : StoredCost} (hc : left.currency = right.currency) :
    (∃ total, addExactCosts left right = .ok total) ↔
      Storable (exactCostRat left + exactCostRat right) := by
  simp [addExactCosts_ok_iff, hc]

variable {total : StoredCost} {known : Option StoredCost} {ledger : Ledger engine}
  {budget : BudgetRow} {categories : CategorySnapshots} {category : BudgetCostCategory}
  {item changed : BudgetCategorySnapshot} {row : ReservationRow} {totals sums : BudgetTotals}
  {budgetID : BudgetID} {snapshot : BudgetSnapshot}

variable {currency : CurrencyCode}

theorem addKnownCost_succeeds_iff (hc : total.currency = currency) :
    (∃ sum, addKnownCost currency total known = .ok sum) ↔
      ∀ cost ∈ known, Storable (exactCostRat total + exactCostRat cost) := by
  cases known with
  | none => simp [addKnownCost]
  | some cost =>
    have hcur : total.currency = (cost.inCurrency currency).currency := hc
    simpa [addKnownCost] using addExactCosts_succeeds_iff hcur

theorem addKnownCost_ok {sum : StoredCost} (h : addKnownCost currency total known = .ok sum) :
    exactCostRat sum = exactCostRat total + (known.map exactCostRat).getD 0 ∧
      sum.currency = total.currency := by
  cases known with
  | none =>
    rw [addKnownCost, pure_ok_iff] at h
    simp [h]
  | some cost => simpa [addKnownCost] using addExactCosts_ok h

/-- A loop body that counts the charge of its row. -/
structure CountsCharge {α : Type} (currency : CurrencyCode)
    (change : α → BudgetCategorySnapshot → Result BudgetCategorySnapshot)
    (toCharge : α → Charge) : Prop where
  succeeds_iff : ∀ row item, item.InCurrency currency →
    ((∃ changed, change row item = .ok changed) ↔
      Storable (exactCostRat item.chargedCost + exactCostRat (toCharge row).cost) ∧
        ∀ cost ∈ (toCharge row).known,
          Storable (exactCostRat item.actualKnownCost + exactCostRat cost))
  view : ∀ row item changed, change row item = .ok changed →
    changed.view = item.view.charge (toCharge row)
  inCurrency : ∀ row item changed, change row item = .ok changed → item.InCurrency currency →
    changed.InCurrency currency

theorem addPendingIntent_countsCharge (currency : CurrencyCode) :
    CountsCharge currency (addPendingIntent currency) pendingCharge where
  succeeds_iff row item hitem := by
    rw [← exactCostRat_inCurrency (pendingCharge row).cost currency, and_comm]
    refine bind_succeeds_iff (addKnownCost_succeeds_iff hitem.known) fun known _ => ?_
    refine (bind_succeeds_iff (addExactCosts_succeeds_iff ?_) fun _ _ =>
      iff_of_true ⟨_, rfl⟩ trivial).trans (and_iff_left trivial)
    exact hitem.charged.trans (StoredCost.inCurrency_currency ..).symm
  view row item changed h := by
    simp only [addPendingIntent, run_ok_iff] at h
    obtain ⟨known, hknown, charged, hcharged, rfl⟩ := h
    ext1 <;> simp [BudgetCategorySnapshot.view, charge, pendingCharge,
      (addKnownCost_ok hknown).1, (addExactCosts_ok hcharged).1]
  inCurrency row item changed h hitem := by
    simp only [addPendingIntent, run_ok_iff] at h
    obtain ⟨known, hknown, charged, hcharged, rfl⟩ := h
    exact ⟨hitem.reserved, (addExactCosts_ok hcharged).2.trans hitem.charged,
      (addKnownCost_ok hknown).2.trans hitem.known⟩

theorem addUsagePosting_countsCharge (currency : CurrencyCode) :
    CountsCharge currency (addUsagePosting currency) postedCharge where
  succeeds_iff row item hitem := by
    rw [← exactCostRat_inCurrency (postedCharge row).cost currency]
    refine bind_succeeds_iff (addExactCosts_succeeds_iff ?_) fun charged _ =>
      (bind_succeeds_iff (addKnownCost_succeeds_iff hitem.known) fun _ _ =>
        iff_of_true ⟨_, rfl⟩ trivial).trans (and_iff_left trivial)
    exact hitem.charged.trans (StoredCost.inCurrency_currency ..).symm
  view row item changed h := by
    simp only [addUsagePosting, run_ok_iff] at h
    obtain ⟨charged, hcharged, known, hknown, rfl⟩ := h
    ext1 <;> simp [BudgetCategorySnapshot.view, charge, postedCharge,
      (addKnownCost_ok hknown).1, (addExactCosts_ok hcharged).1]
  inCurrency row item changed h hitem := by
    simp only [addUsagePosting, run_ok_iff] at h
    obtain ⟨charged, hcharged, known, hknown, rfl⟩ := h
    exact ⟨hitem.reserved, (addExactCosts_ok hcharged).2.trans hitem.charged,
      (addKnownCost_ok hknown).2.trans hitem.known⟩

namespace CountsCharge

variable {α : Type} {change : α → BudgetCategorySnapshot → Result BudgetCategorySnapshot}
  {toCharge : α → Charge}

section

variable (hc : CountsCharge currency change toCharge)

include hc

/-- The loop succeeds exactly when the partial sums of its charges fit. -/
theorem foldlM_succeeds_iff (rows : List α)
    (item : BudgetCategorySnapshot) (hitem : item.InCurrency currency) :
    (∃ changed, rows.foldlM (fun item row => change row item) item = .ok changed) ↔
      ChargesFit item.view.charged item.view.known (rows.map toCharge) := by
  induction rows generalizing item with
  | nil => simp [ChargesFit]
  | cons row rows ih =>
    have hrest : ∀ mid, change row item = .ok mid →
        ((∃ changed, rows.foldlM (fun item row => change row item) mid = .ok changed) ↔
          ChargesFit (item.view.charge (toCharge row)).charged
            (item.view.charge (toCharge row)).known (rows.map toCharge)) := fun mid hmid => by
      rw [ih mid (hc.inCurrency row item mid hmid hitem), hc.view row item mid hmid]
    refine (bind_succeeds_iff (hc.succeeds_iff row item hitem) hrest).trans ?_
    cases hk : (toCharge row).known with
    | none => simp [ChargesFit, charge, BudgetCategorySnapshot.view, hk, and_assoc]
    | some cost =>
      simp [ChargesFit, charge, BudgetCategorySnapshot.view, hk, and_assoc,
        and_left_comm]

theorem foldlM_view {rows : List α}
    (h : rows.foldlM (fun item row => change row item) item = .ok changed) :
    changed.view = (rows.map toCharge).foldl charge item.view := by
  rw [foldl_map]
  exact foldlM_observe BudgetCategorySnapshot.view _ (fun s a t => hc.view a s t) h

theorem foldlM_inCurrency {rows : List α}
    (h : rows.foldlM (fun item row => change row item) item = .ok changed)
    (hitem : item.InCurrency currency) : changed.InCurrency currency :=
  foldlM_keeps (fun item row mid => hc.inCurrency row item mid) h hitem

end

end CountsCharge

/-! ### Active reservations -/

theorem addActiveReservation_ok (h : addActiveReservation currency row item = .ok changed) :
    changed.view = item.view.reserve row ∧
      (item.InCurrency currency → changed.InCurrency currency) := by
  simp only [addActiveReservation, run_ok_iff] at h
  obtain ⟨reserved, hreserved, rfl⟩ := h
  refine ⟨?_, fun hitem => ⟨(addExactCosts_ok hreserved).2.trans hitem.reserved, hitem.charged,
    hitem.known⟩⟩
  ext1 <;> simp [BudgetCategorySnapshot.view, reserve, (addExactCosts_ok hreserved).1]

theorem addActiveReservation_succeeds_iff (hitem : item.InCurrency currency) :
    (∃ changed, addActiveReservation currency row item = .ok changed) ↔
      Storable (item.view.reserved + exactCostRat row.costBound) := by
  have hcur : item.reservedCost.currency = (row.costBound.inCurrency currency).currency :=
    hitem.reserved
  have hadd := addExactCosts_succeeds_iff hcur
  rw [exactCostRat_inCurrency] at hadd
  exact (bind_succeeds_iff hadd fun _ _ => iff_of_true ⟨_, rfl⟩ trivial).trans
    (and_iff_left trivial)

theorem foldlM_addActiveReservation_ok {rows : List ReservationRow}
    (h : rows.foldlM (fun item row => addActiveReservation currency row item) item =
      .ok changed) :
    changed.view = rows.foldl reserve item.view ∧
      (item.InCurrency currency → changed.InCurrency currency) := by
  exact ⟨foldlM_observe BudgetCategorySnapshot.view _
      (fun s a t h => (addActiveReservation_ok h).1) h,
    foldlM_keeps (fun s a t h => (addActiveReservation_ok h).2) h⟩

theorem foldlM_addActiveReservation_succeeds_iff (rows : List ReservationRow)
    (item : BudgetCategorySnapshot) (hitem : item.InCurrency currency) :
    (∃ changed, rows.foldlM (fun item row => addActiveReservation currency row item) item =
        .ok changed) ↔
      PartialSums Storable item.view.reserved
        (rows.map fun row => exactCostRat row.costBound) := by
  induction rows generalizing item with
  | nil => simp
  | cons row rows ih =>
    refine bind_succeeds_iff (addActiveReservation_succeeds_iff hitem) fun mid hmid => ?_
    obtain ⟨hview, hcurrency⟩ := addActiveReservation_ok hmid
    rw [ih mid (hcurrency hitem), hview]
    rfl

namespace Ledger

/-- The charges of a budget, in the order in which they are added: pending intents first. -/
def charges (ledger : Ledger engine) (budgetID : BudgetID) : List Charge :=
  (ledger.pendingIntents budgetID).map pendingCharge ++
    (ledger.usagePostings budgetID).map postedCharge

/-- The active reservations of one category. -/
def activeIn (ledger : Ledger engine) (budgetID : BudgetID) (category : BudgetCostCategory) :
    List ReservationRow :=
  (ledger.activeReservations budgetID).filter fun row => decide (row.category = category)

/-- The charges of one category. -/
def chargesIn (ledger : Ledger engine) (budgetID : BudgetID) (category : BudgetCostCategory) :
    List Charge :=
  (ledger.charges budgetID).filter fun x => decide (x.category = category)

end Ledger

/-- A category of the legacy aggregate. -/
def legacyView (budget : BudgetRow) (category : BudgetCostCategory) : CategoryView :=
  ((legacyCategories budget "").get category).view

theorem legacyCategories_view (budget : BudgetRow) (currency : CurrencyCode)
    (category : BudgetCostCategory) :
    ((legacyCategories budget currency).get category).view = legacyView budget category := by
  cases category <;> rfl

theorem legacyCategories_inCurrency (budget : BudgetRow) (currency : CurrencyCode)
    (category : BudgetCostCategory) :
    ((legacyCategories budget currency).get category).InCurrency currency := by
  cases category <;> exact ⟨rfl, rfl, rfl⟩

/-- Every partial sum that the loops form in one category fits its columns. -/
def Ledger.SumsFit (ledger : Ledger engine) (budget : BudgetRow)
    (category : BudgetCostCategory) : Prop :=
  PartialSums Storable (legacyView budget category).reserved
      ((ledger.activeIn budget.id category).map fun row => exactCostRat row.costBound) ∧
    ChargesFit (legacyView budget category).charged (legacyView budget category).known
      (ledger.chargesIn budget.id category)

/-- What the loops hold of one category in the end. -/
def Ledger.categoryView (ledger : Ledger engine) (budget : BudgetRow)
    (category : BudgetCostCategory) : CategoryView :=
  (ledger.chargesIn budget.id category).foldl charge
    ((ledger.activeIn budget.id category).foldl reserve
      (legacyView budget category))

theorem Ledger.chargesIn_eq (ledger : Ledger engine) (budgetID : BudgetID)
    (category : BudgetCostCategory) :
    ledger.chargesIn budgetID category =
      ((ledger.pendingIntents budgetID).filter fun row =>
          decide (row.2.category = category)).map pendingCharge ++
        ((ledger.usagePostings budgetID).filter fun row =>
          decide (row.1.category = category)).map postedCharge := by
  simp only [chargesIn, charges, filter_append, filter_map]
  rfl

/-- The three loops, on the rows of one category. -/
def loadCategory (ledger : Ledger engine) (budget : BudgetRow) (currency : CurrencyCode)
    (category : BudgetCostCategory) : Result BudgetCategorySnapshot := do
  let item ← (ledger.activeIn budget.id category).foldlM
    (fun item row => addActiveReservation currency row item)
    ((legacyCategories budget currency).get category)
  let item ← ((ledger.pendingIntents budget.id).filter fun row =>
      decide (row.2.category = category)).foldlM
    (fun item row => addPendingIntent currency row item) item
  ((ledger.usagePostings budget.id).filter fun row =>
      decide (row.1.category = category)).foldlM
    (fun item row => addUsagePosting currency row item) item

/-- The loops treat each category on its own. -/
theorem loadBudgetCategorySnapshots_ok_iff_category :
    loadBudgetCategorySnapshots ledger budget currency = .ok categories ↔
      ∀ c, loadCategory ledger budget currency c = .ok (categories.get c) := by
  simp only [loadBudgetCategorySnapshots, loadCategory, bind_ok_iff,
    CategorySnapshots.foldlM_modify_ok_iff]
  constructor
  · rintro ⟨a, ha, b, hb, h⟩ c
    exact ⟨a.get c, ha c, b.get c, hb c, h c⟩
  · intro h
    choose a ha b hb h using h
    refine ⟨⟨a .model, a .tool, a .infrastructure⟩, fun c => ?_,
      ⟨b .model, b .tool, b .infrastructure⟩, fun c => ?_, fun c => ?_⟩
    · cases c <;> exact ha _
    · cases c <;> exact hb _
    · cases c <;> exact h _

theorem loadCategory_succeeds_iff (ledger : Ledger engine) (budget : BudgetRow)
    (currency : CurrencyCode) (category : BudgetCostCategory) :
    (∃ item, loadCategory ledger budget currency category = .ok item) ↔
      ledger.SumsFit budget category := by
  have hstart := legacyCategories_inCurrency budget currency category
  have hpending := addPendingIntent_countsCharge currency
  have hposted := addUsagePosting_countsCharge currency
  rw [Ledger.SumsFit, Ledger.chargesIn_eq, chargesFit_append,
    ← legacyCategories_view budget currency]
  refine bind_succeeds_iff (foldlM_addActiveReservation_succeeds_iff _ _ hstart) fun a ha => ?_
  obtain ⟨hview, hcurrency⟩ := foldlM_addActiveReservation_ok ha
  -- the charged and known sums that the loops of the charges start from
  obtain ⟨hcharged, hknown, -⟩ := foldl_reserve
    ((legacyCategories budget currency).get category).view (ledger.activeIn budget.id category)
  rw [← hcharged, ← hknown, ← hview]
  refine bind_succeeds_iff (hpending.foldlM_succeeds_iff _ a (hcurrency hstart)) fun b hb => ?_
  rw [hposted.foldlM_succeeds_iff _ b (hpending.foldlM_inCurrency hb (hcurrency hstart)),
    hpending.foldlM_view hb, (foldl_charge ..).2.1, (foldl_charge ..).2.2]

theorem loadCategory_ok (h : loadCategory ledger budget currency category = .ok item) :
    item.view = ledger.categoryView budget category ∧ item.InCurrency currency := by
  simp only [loadCategory, bind_ok_iff] at h
  obtain ⟨a, ha, b, hb, h⟩ := h
  have hpending := addPendingIntent_countsCharge currency
  have hposted := addUsagePosting_countsCharge currency
  obtain ⟨hav, hacur⟩ := foldlM_addActiveReservation_ok ha
  have hbcur := hpending.foldlM_inCurrency hb
    (hacur (legacyCategories_inCurrency budget currency category))
  refine ⟨?_, hposted.foldlM_inCurrency h hbcur⟩
  rw [hposted.foldlM_view h, hpending.foldlM_view hb, hav, legacyCategories_view,
    ← foldl_append, ← Ledger.chargesIn_eq]
  rfl

/-- The loops succeed exactly when every partial sum fits its columns. -/
theorem loadBudgetCategorySnapshots_succeeds_iff :
    (∃ categories, loadBudgetCategorySnapshots ledger budget currency = .ok categories) ↔
      ∀ c, ledger.SumsFit budget c := by
  simp only [loadBudgetCategorySnapshots_ok_iff_category, ← loadCategory_succeeds_iff ledger
    budget currency]
  constructor
  · rintro ⟨categories, h⟩ c
    exact ⟨_, h c⟩
  · intro h
    choose item h using h
    exact ⟨⟨item .model, item .tool, item .infrastructure⟩, fun c => by cases c <;> exact h _⟩

/-! ### Pending reconciliation -/

theorem addActiveReservation_pending (h : addActiveReservation currency row item = .ok changed) :
    changed.reconciliationPending = item.reconciliationPending := by
  simp only [addActiveReservation, run_ok_iff] at h
  obtain ⟨_, _, rfl⟩ := h
  rfl

theorem addPendingIntent_pending {row : IntentRow × ReservationRow}
    (h : addPendingIntent currency row item = .ok changed) :
    changed.reconciliationPending = true := by
  simp only [addPendingIntent, run_ok_iff] at h
  obtain ⟨_, _, _, _, rfl⟩ := h
  rfl

theorem addUsagePosting_pending {row : PostingRow × ReservationRow}
    (h : addUsagePosting currency row item = .ok changed) :
    changed.reconciliationPending = item.reconciliationPending := by
  simp only [addUsagePosting, run_ok_iff] at h
  obtain ⟨_, _, _, _, rfl⟩ := h
  rfl

private theorem foldl_raise {α : Type} (rows : List α) (b : Bool) :
    rows.foldl (fun _ _ => true) b = (b || !rows.isEmpty) := by
  induction rows generalizing b with
  | nil => simp
  | cons _ rows ih => simp [ih]

/-- A category reports pending reconciliation exactly when one of its intents is pending. -/
theorem loadCategory_pending (h : loadCategory ledger budget currency category = .ok item) :
    item.reconciliationPending =
      !((ledger.pendingIntents budget.id).filter fun row =>
        decide (row.2.category = category)).isEmpty := by
  simp only [loadCategory, bind_ok_iff] at h
  obtain ⟨a, ha, b, hb, h⟩ := h
  have hlegacy : ((legacyCategories budget currency).get category).reconciliationPending =
      false := by
    cases category <;> rfl
  rw [foldlM_observe (·.reconciliationPending) (fun b _ => b)
      (fun _ _ _ h => addUsagePosting_pending h) h, foldl_fixed,
    foldlM_observe (·.reconciliationPending) (fun _ _ => true)
      (fun _ _ _ h => addPendingIntent_pending h) hb, foldl_raise,
    foldlM_observe (·.reconciliationPending) (fun b _ => b)
      (fun _ _ _ h => addActiveReservation_pending h) ha, foldl_fixed, hlegacy, Bool.false_or]

theorem addCategory_ok {category : BudgetCategorySnapshot}
    (h : addCategory totals category = .ok sums) :
    exactCostRat sums.reservedCost =
        exactCostRat totals.reservedCost + category.view.reserved ∧
      exactCostRat sums.chargedCost =
        exactCostRat totals.chargedCost + category.view.charged ∧
      sums.reconciliationPending =
        (totals.reconciliationPending || category.reconciliationPending) := by
  simp only [addCategory, run_ok_iff] at h
  obtain ⟨_, _, reserved, hreserved, charged, hcharged, _, _, _, _, rfl⟩ := h
  exact ⟨(addExactCosts_ok hreserved).1, (addExactCosts_ok hcharged).1, rfl⟩

theorem foldlM_addCategory_ok (h : categories.toList.foldlM addCategory totals = .ok sums) :
    exactCostRat sums.reservedCost = exactCostRat totals.reservedCost +
        (categories.model.view.reserved + categories.tool.view.reserved +
          categories.infrastructure.view.reserved) ∧
      exactCostRat sums.chargedCost = exactCostRat totals.chargedCost +
        (categories.model.view.charged + categories.tool.view.charged +
          categories.infrastructure.view.charged) ∧
      sums.reconciliationPending = (totals.reconciliationPending ||
        categories.toList.any (·.reconciliationPending)) := by
  simp only [CategorySnapshots.toList, foldlM_cons, foldlM_nil, run_ok_iff] at h
  obtain ⟨a, ha, b, hb, c, hc, rfl⟩ := h
  obtain ⟨har, hac, hap⟩ := addCategory_ok ha
  obtain ⟨hbr, hbc, hbp⟩ := addCategory_ok hb
  obtain ⟨hcr, hcc, hcp⟩ := addCategory_ok hc
  refine ⟨by rw [hcr, hbr, har]; ring, by rw [hcc, hbc, hac]; ring, ?_⟩
  simp [hcp, hbp, hap, CategorySnapshots.toList, Bool.or_assoc]

theorem foldlM_addCategory_currency (h : categories.toList.foldlM addCategory totals = .ok sums) :
    sums.reservedCost.currency = totals.reservedCost.currency := by
  have hkeep := foldlM_observe (·.reservedCost.currency) (fun c _ => c)
    (fun _ _ _ hadd => by
      simp only [addCategory, run_ok_iff] at hadd
      obtain ⟨_, _, reserved, hreserved, _, _, _, _, _, _, rfl⟩ := hadd
      exact (addExactCosts_ok hreserved).2) h
  rw [hkeep, foldl_fixed]

theorem sum_categories {α : Type} (category : α → BudgetCostCategory) (f : α → ℚ) (rows : List α) :
    ((rows.filter fun row => decide (category row = .model)).map f).sum +
        ((rows.filter fun row => decide (category row = .tool)).map f).sum +
        ((rows.filter fun row => decide (category row = .infrastructure)).map f).sum =
      (rows.map f).sum := by
  induction rows with
  | nil => simp
  | cons row rows ih =>
    rw [map_cons, sum_cons, ← ih]
    cases h : category row <;> simp [h] <;> ring

/-- The exact reserved amount of a budget. -/
def Ledger.reservedAmount (ledger : Ledger engine) (budget : BudgetRow) : ℚ :=
  budget.reservedCostMinor +
    ((ledger.activeReservations budget.id).map fun row => exactCostRat row.costBound).sum

/-- The exact charged amount of a budget. -/
def Ledger.chargedAmount (ledger : Ledger engine) (budget : BudgetRow) : ℚ :=
  budget.actualCostMinor + ((ledger.charges budget.id).map fun x => exactCostRat x.cost).sum

/-- The amounts of the three categories are those of the budget. -/
theorem Ledger.sum_categoryView (ledger : Ledger engine) (budget : BudgetRow) :
    (ledger.categoryView budget .model).reserved + (ledger.categoryView budget .tool).reserved +
        (ledger.categoryView budget .infrastructure).reserved = ledger.reservedAmount budget ∧
      (ledger.categoryView budget .model).charged + (ledger.categoryView budget .tool).charged +
        (ledger.categoryView budget .infrastructure).charged = ledger.chargedAmount budget := by
  simp only [categoryView, foldl_charge, foldl_reserve, reservedAmount, activeIn, chargedAmount,
    chargesIn, ← sum_categories (·.category) _ (ledger.activeReservations budget.id),
    ← sum_categories (·.category) _ (ledger.charges budget.id)]
  simp [legacyView, legacyCategories, CategorySnapshots.get, BudgetCategorySnapshot.view,
    emptyCategory, zeroExactCost]
  constructor <;> ring

/-- What a computed snapshot says about the ledger. -/
structure Describes (ledger : Ledger engine) (budgetID : BudgetID) (snapshot : BudgetSnapshot)
    (budget : BudgetRow) (limit : LimitRow) : Prop where
  findBudget : ledger.findBudget budgetID = some budget
  latestLimit : ledger.latestLimit budgetID = some limit
  sums : ∀ c, ledger.SumsFit budget c
  reserved : exactCostRat snapshot.reservedCost = ledger.reservedAmount budget
  charged : exactCostRat snapshot.chargedCost = ledger.chargedAmount budget
  exposure : ∃ exposure, addExactCosts snapshot.reservedCost snapshot.chargedCost = .ok exposure
  currency : snapshot.reservedCost.currency = limit.currency
  pending : snapshot.reconciliationPending = !(ledger.pendingIntents budgetID).isEmpty
  hardCost : snapshot.hardCost = limit.hardCost.inCurrency limit.currency
  budgetID : snapshot.budgetID = budget.id
  taskID : snapshot.taskID = budget.taskID
  revision : snapshot.revision = budget.revision
  limitRevision : snapshot.limitRevision = limit.revision
  hardCap : snapshot.reconciliationPending = true → snapshot.hardCapReached = true

theorem Ledger.findBudget_id (h : ledger.findBudget budgetID = some budget) :
    budget ∈ ledger.budgets.rows ∧ budget.id = budgetID :=
  ⟨mem_of_find?_eq_some h, by simpa using find?_some h⟩

theorem Ledger.findReservation_id {id : String} (h : ledger.findReservation id = some row) :
    row ∈ ledger.reservations.rows ∧ row.id = id :=
  ⟨mem_of_find?_eq_some h, by simpa using find?_some h⟩

/-- Some category reports pending reconciliation exactly when some intent is pending. -/
theorem any_pending_iff (h : loadBudgetCategorySnapshots ledger budget currency = .ok categories) :
    categories.toList.any (·.reconciliationPending) =
      !(ledger.pendingIntents budget.id).isEmpty := by
  have hc := loadBudgetCategorySnapshots_ok_iff_category.1 h
  have hm := loadCategory_pending (hc .model)
  have ht := loadCategory_pending (hc .tool)
  have hi := loadCategory_pending (hc .infrastructure)
  simp only [CategorySnapshots.get] at hm ht hi
  simp only [CategorySnapshots.toList, any_cons, any_nil, Bool.or_false, hm, ht, hi]
  cases hp : ledger.pendingIntents budget.id with
  | nil => simp
  | cons row rows => cases hr : row.2.category <;> simp [hr]

theorem computeBudgetSnapshot_ok (h : computeBudgetSnapshot ledger budgetID = .ok snapshot) :
    ∃ budget limit, Describes ledger budgetID snapshot budget limit := by
  unfold computeBudgetSnapshot at h
  split at h
  · next budget limit hbudget hlimit =>
    simp only [run_ok_iff] at h
    obtain ⟨categories, hload, totals, htotals, exposure, hexposure, rfl⟩ := h
    have hcat := loadBudgetCategorySnapshots_ok_iff_category.1 hload
    have hm := (loadCategory_ok (hcat .model)).1
    have ht := (loadCategory_ok (hcat .tool)).1
    have hi := (loadCategory_ok (hcat .infrastructure)).1
    simp only [CategorySnapshots.get] at hm ht hi
    obtain ⟨hres, hchg, hpend⟩ := foldlM_addCategory_ok htotals
    rw [hm, ht, hi] at hres hchg
    rw [(ledger.sum_categoryView budget).1] at hres
    rw [(ledger.sum_categoryView budget).2] at hchg
    rw [any_pending_iff hload, (Ledger.findBudget_id hbudget).2] at hpend
    refine ⟨budget, limit, hbudget, hlimit,
      loadBudgetCategorySnapshots_succeeds_iff.1 ⟨categories, hload⟩, ?_, ?_,
      ⟨exposure, hexposure⟩, foldlM_addCategory_currency htotals, ?_, rfl, rfl, rfl, rfl, rfl,
      fun hp => ?_⟩
    · simpa [snapshotOf, emptyTotals, zeroExactCost] using hres
    · simpa [snapshotOf, emptyTotals, zeroExactCost] using hchg
    · simpa [snapshotOf, emptyTotals] using hpend
    · simp only [snapshotOf] at hp ⊢
      simp [hp]
  · cases h

theorem computeBudgetSnapshot_describes (h : computeBudgetSnapshot ledger budgetID = .ok snapshot)
    (hbudget : ledger.findBudget budgetID = some budget) :
    ∃ limit, Describes ledger budgetID snapshot budget limit := by
  obtain ⟨found, limit, hd⟩ := computeBudgetSnapshot_ok h
  obtain rfl : found = budget := Option.some.inj (hd.findBudget.symm.trans hbudget)
  exact ⟨limit, hd⟩

end Codeflux.Storage
