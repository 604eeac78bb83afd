import GenSubnet.Witness.Settlement

/-!
# Settlements are written once

What the writes of the three operations change, whatever the store answers, and when a settlement
that is repeated finds its charge as it has left it.
-/

namespace GenSubnet.Witness.Settlement
open Library Library.Effects Pricing

variable (item : Invocation)

/-! ## The writes -/

/-- The ledger that an operation works on, from what it has loaded. -/
def Loaded (snapshot : Option Ledger) (ledger : Ledger) : Prop :=
  snapshot = some ledger ∨ snapshot = none ∧ ledger.charges = Dict.empty

/-- The ledger is one that `settle` leaves as it is, since it has this usage already. -/
def Repeats (ledger : Ledger) (usage : Option Usage) (exchangeId : Option Uuid) : Prop :=
  ledger.scopeKey = item.scope.key ∧ ∃ normalized key charge, Usage.normalize usage = .ok normalized ∧
    select item ledger normalized exchangeId = .ok (some (key, charge)) ∧
    charge.state ≠ .possible ∧ charge.usage = normalized

/-- A write does what it is for. -/
def Related (write : Put Ledger Change) : Prop :=
  ∃ ledger seed, Loaded write.old ledger ∧ ledger.scopeKey = item.scope.key ∧
    match write.tag with
    | .reserve exchangeId => ∃ model, ledger.reserve item.base seed exchangeId model = .ok write.new
    | .discard exchangeId => ledger.discard item.base seed exchangeId = some write.new
    | .settle usage exchangeId => ∃ normalized key charge credits,
        Usage.normalize usage = .ok normalized ∧
        select item ledger normalized exchangeId = .ok (some (key, charge)) ∧
        charge.state = .possible ∧
        write.new =
          ledger.revise seed (ledger.charges.set key (charge.settled normalized credits))

/-- The charge that a ledger has under a key. -/
def chargeAt (ledger : Option Ledger) (key : String) : Option Charge :=
  ledger.bind fun ledger => ledger.charges.get key

variable {item}

theorem Loaded.chargeAt {snapshot : Option Ledger} {ledger : Ledger}
    (loaded : Loaded snapshot ledger) (key : String) :
    Settlement.chargeAt snapshot key = ledger.charges.get key := by
  rcases loaded with rfl | ⟨rfl, empty⟩
  · rfl
  · rw [empty]
    rfl

theorem select_eq {ledger : Ledger} {normalized : Option Tokens} {exchangeId : Option Uuid}
    {key : String} {charge : Charge}
    (selected : select item ledger normalized exchangeId = .ok (some (key, charge))) :
    ledger.charges.get key = some charge ∧
      (∀ exchange, exchangeId = some exchange → charge.exchangeId = exchange) ∧
      (exchangeId = none → key = item.base) := by
  unfold select at selected
  split at selected
  · split at selected <;> cases selected
  · rename_i found
    split at selected
    · cases selected
      exact ⟨found, nofun, fun _ => rfl⟩
    · split at selected
      · rename_i same
        cases selected
        exact ⟨found, by rintro _ ⟨⟩; exact same, nofun⟩
      · split at selected
        · split at selected <;> cases selected
        · rename_i other
          split at selected
          · rename_i same
            cases selected
            exact ⟨other, by rintro _ ⟨⟩; exact same, nofun⟩
          · cases selected

theorem Related.final {write : Put Ledger Change} (related : Related item write)
    {usage : Option Usage} {exchangeId : Option Uuid} (tag : write.tag = .settle usage exchangeId)
    {key : String} {charge : Charge} (present : chargeAt write.old key = some charge)
    (final : charge.state ≠ .possible) : write.new.charges.get key = some charge := by
  obtain ⟨ledger, seed, loaded, -, change⟩ := related
  rw [tag] at change
  obtain ⟨normalized, chosen, old, credits, -, selected, possible, is⟩ := change
  rw [loaded.chargeAt] at present
  obtain ⟨found, -, -⟩ := select_eq selected
  rw [is]
  change (ledger.charges.set chosen _).get key = _
  have other : key ≠ chosen := by
    rintro rfl
    rw [found] at present
    obtain rfl := Option.some.inj present
    exact final possible
  rw [Dict.get_set_of_ne _ _ other]
  exact present

theorem Related.current {write : Put Ledger Change} (related : Related item write)
    {usage : Option Usage} {exchange : Uuid} (tag : write.tag = .settle usage (some exchange))
    {charge : Charge} (present : chargeAt write.old item.base = some charge)
    (superseded : charge.exchangeId ≠ exchange) :
    write.new.charges.get item.base = some charge := by
  obtain ⟨ledger, seed, loaded, -, change⟩ := related
  rw [tag] at change
  obtain ⟨normalized, chosen, old, credits, -, selected, possible, is⟩ := change
  rw [loaded.chargeAt] at present
  obtain ⟨found, belongs, -⟩ := select_eq selected
  rw [is]
  change (ledger.charges.set chosen _).get item.base = _
  have other : item.base ≠ chosen := by
    rintro rfl
    rw [found] at present
    obtain rfl := Option.some.inj present
    exact superseded (belongs exchange rfl)
  rw [Dict.get_set_of_ne _ _ other]
  exact present

/-- All charges are under the key of the call. -/
def OnlyBase (item : Invocation) (ledger : Option Ledger) : Prop :=
  ∀ key charge, chargeAt ledger key = some charge → key = item.base

theorem Related.onlyBase {write : Put Ledger Change} (related : Related item write)
    (before : OnlyBase item write.old) : OnlyBase item (some write.new) := by
  obtain ⟨ledger, seed, loaded, -, change⟩ := related
  have old : ∀ key charge, ledger.charges.get key = some charge → key = item.base := by
    intro key charge present
    exact before key charge ((loaded.chargeAt key).trans present)
  intro key charge present
  change write.new.charges.get key = some charge at present
  cases kind : write.tag with
  | reserve exchangeId =>
      rw [kind] at change
      obtain ⟨model, reserved⟩ := change
      rw [(reserve_eq reserved).2] at present
      change (ledger.charges.set item.base _).get key = _ at present
      rw [Dict.get_set] at present
      split at present
      · assumption
      · exact old key charge present
  | discard exchangeId =>
      rw [kind] at change
      rw [discard_eq change] at present
      change (ledger.charges.filter _).get key = _ at present
      rw [Dict.get_filter, Option.filter_eq_some_iff] at present
      exact old key charge present.1
  | settle usage exchangeId =>
      rw [kind] at change
      obtain ⟨normalized, chosen, charge', credits, -, selected, -, is⟩ := change
      rw [is] at present
      change (ledger.charges.set chosen _).get key = _ at present
      rw [Dict.get_set] at present
      split at present
      · rename_i same
        rw [same]
        exact old chosen charge' (select_eq selected).1
      · exact old key charge present

theorem size_le_one {ledger : Ledger} (only : OnlyBase item (some ledger)) :
    ledger.charges.size ≤ 1 := by
  have keys : ∀ key ∈ ledger.charges.keys, key = item.base := by
    intro key member
    obtain ⟨⟨_, charge⟩, inItems, rfl⟩ := List.mem_map.mp member
    exact only _ charge (Dict.get_eq_some_iff.mpr inItems)
  have nodup : ledger.charges.keys.Nodup := ledger.charges.nodup
  have length : ledger.charges.keys.length ≤ 1 := by
    cases h : ledger.charges.keys with
    | nil => simp
    | cons first rest =>
        cases rest with
        | nil => simp
        | cons second rest =>
            rw [h] at nodup keys
            have same := (keys first (by simp)).trans (keys second (by simp)).symm
            simp [same] at nodup
  simpa [Dict.size, Dict.keys] using length

/-! ## The rules -/

/-- The charge has the credits that the published table gives for its usage. -/
def PricedBy (w : World) (charge : Charge) : Prop :=
  ∃ p, w.published = some p ∧ p.table.models.contains charge.model = true ∧
    charge.credits = charge.usage.bind (p.table.credits charge.model)

def PricedLedger (w : World) (ledger : Ledger) : Prop :=
  ∀ key charge, ledger.charges.get key = some charge → PricedBy w charge

/-- The Budgets have parts of the published table, and the charges are priced by it. -/
structure World.Consistent (w : World) : Prop where
  budgets : ∀ own ∈ w.budgets, ∃ p, w.published = some p ∧ p.table.Keeps own.table
  charges : ∀ write ∈ w.ledger.writes ++ w.ledger.adrift, PricedLedger w write.new

/-- A published table keeps the digits of the last one. -/
def KeepsDigits (w : World) : Move → Prop
  | .publish new => ∀ p ∈ w.published, new.table.Keeps p.table
  | _ => True

instance (w : World) : ∀ m, Decidable (KeepsDigits w m)
  | .publish new => inferInstanceAs (Decidable (∀ p ∈ w.published, new.table.Keeps p.table))
  | .create | .settle _ _ => isTrue trivial

/-- What happens to the published table. -/
def World.Kept (w w' : World) : Prop :=
  ∀ p, w.published = some p → ∃ p', w'.published = some p' ∧ p'.table.Keeps p.table

variable (item) in
/-- `strict` when the published tables keep their digits. -/
def Invariant (strict : Prop) (w : World) : Prop :=
  w.ledger.Sound none (Related item) ∧ (strict → w.Consistent)

variable (item) in
def Moves (strict : Prop) (w w' : World) : Prop :=
  Invariant item strict w' ∧ w.ledger.writes <+: w'.ledger.writes ∧ (strict → w.Kept w')

variable (item) in
def rules (strict : Prop) : Rules World Request Request.Reply Error where
  invariant := Invariant item strict
  others := Moves item strict
  answers w request reply w' := ∃ c, w.answer request c = some (reply, w')
  guarantee := Moves item strict

variable {strict : Prop} {w w' : World}

theorem World.Kept.refl (w : World) : w.Kept w := fun p same => ⟨p, same, ModelTable.Keeps.refl _⟩

theorem World.Kept.trans {u v w : World} (first : u.Kept v) (second : v.Kept w) : u.Kept w := by
  intro p same
  obtain ⟨p', same', keeps⟩ := first p same
  obtain ⟨p'', same'', keeps'⟩ := second p' same'
  exact ⟨p'', same'', keeps'.trans keeps⟩

theorem contains_of_keeps {table previous : ModelTable} (keeps : table.Keeps previous)
    {model : String} (known : previous.models.contains model = true) :
    table.models.contains model = true := by
  obtain ⟨rates, found⟩ := Option.isSome_iff_exists.mp known
  exact Dict.contains_of_get (keeps.2 (model, rates) (Dict.get_eq_some_iff.mp found))

theorem credits_of_keeps {table previous : ModelTable} (keeps : table.Keeps previous)
    {model : String} (known : previous.models.contains model = true) :
    table.credits model = previous.credits model := by
  obtain ⟨rates, found⟩ := Option.isSome_iff_exists.mp known
  have same : table.models.get model = some rates :=
    keeps.2 (model, rates) (Dict.get_eq_some_iff.mp found)
  funext usage
  simp only [ModelTable.credits, found, same, keeps.1]

theorem PricedBy.kept {charge : Charge} (priced : PricedBy w charge) (kept : w.Kept w') :
    PricedBy w' charge := by
  obtain ⟨p, same, known, credits⟩ := priced
  obtain ⟨p', same', keeps⟩ := kept p same
  refine ⟨p', same', contains_of_keeps keeps known, ?_⟩
  rw [credits_of_keeps keeps known]
  exact credits

theorem PricedLedger.kept {ledger : Ledger} (priced : PricedLedger w ledger) (kept : w.Kept w') :
    PricedLedger w' ledger :=
  fun key charge present => (priced key charge present).kept kept

theorem Invariant.refl (invariant : Invariant item strict w) : Moves item strict w w :=
  ⟨invariant, List.prefix_rfl, fun _ => World.Kept.refl w⟩

theorem Invariant.ledger (invariant : Invariant item strict w) {ledger : Versioned Ledger Change}
    (sound : ledger.Sound none (Related item)) (more : w.ledger.writes <+: ledger.writes)
    (priced : strict → ∀ write ∈ ledger.writes ++ ledger.adrift, PricedLedger w write.new) :
    Moves item strict w { w with ledger } := by
  refine ⟨⟨sound, fun holds => ⟨(invariant.2 holds).budgets, ?_⟩⟩, more, fun _ => World.Kept.refl w⟩
  intro write member
  exact priced holds write member

theorem Invariant.tables (invariant : Invariant item strict w) {published : Option Published}
    {budgets : List Published} (kept : strict → w.Kept { w with published, budgets })
    (parts : strict → ∀ own ∈ budgets, ∃ p, published = some p ∧ p.table.Keeps own.table) :
    Moves item strict w { w with published, budgets } := by
  refine ⟨⟨invariant.1, fun holds => ⟨parts holds, ?_⟩⟩, List.prefix_rfl, kept⟩
  intro write member
  exact ((invariant.2 holds).charges write member).kept (kept holds)

theorem move_moves (invariant : Invariant item strict w) {m : Move}
    (meets : strict → KeepsDigits w m) (moved : w.move m = some w') : Moves item strict w w' := by
  cases m with
  | publish new =>
      obtain ⟨published, is, rfl⟩ := Option.map_eq_some_iff.mp moved
      have kept : strict → w.Kept { w with published } := by
        intro holds p same
        rw [same] at is
        simp only [publish] at is
        split at is
        · split at is
          · obtain rfl := Option.some.inj is
            exact ⟨p, rfl, ModelTable.Keeps.refl _⟩
          · obtain rfl := Option.some.inj is
            exact ⟨new, rfl, meets holds p same⟩
        · cases is
      apply invariant.tables kept
      intro holds own member
      obtain ⟨p, same, keeps⟩ := (invariant.2 holds).budgets own member
      obtain ⟨p', same', keeps'⟩ := kept holds p same
      exact ⟨p', same', keeps'.trans keeps⟩
  | create =>
      obtain ⟨table, same, rfl⟩ := Option.map_eq_some_iff.mp moved
      apply @Invariant.tables item strict w invariant w.published (w.budgets ++ [table]) fun _ p same =>
        ⟨p, same, ModelTable.Keeps.refl _⟩
      intro holds own member
      rcases List.mem_append.mp member with member | member
      · exact (invariant.2 holds).budgets own member
      · obtain rfl := List.mem_singleton.mp member
        exact ⟨own, same, ModelTable.Keeps.refl _⟩
  | settle n lands =>
      obtain ⟨ledger, settled, rfl⟩ := Option.map_eq_some_iff.mp moved
      obtain ⟨more, members⟩ := Versioned.settle_writes settled
      exact invariant.ledger (invariant.1.settle settled) more fun holds write member =>
        (invariant.2 holds).charges write (members write member)

/-! ## What the operations have seen -/

/-- The snapshot was what the object held when the call began, or was written since then. -/
def SeenBy (began w : World) (snapshot : Option Ledger) : Prop :=
  snapshot = began.ledger.data ∨
    ∃ write ∈ w.ledger.writes.drop began.ledger.writes.length, snapshot = some write.new

theorem SeenBy.mono {began : World} {snapshot : Option Ledger} (seen : SeenBy began w snapshot)
    (more : w.ledger.writes <+: w'.ledger.writes) : SeenBy began w' snapshot := by
  rcases seen with same | ⟨write, member, is⟩
  · exact Or.inl same
  · obtain ⟨rest, is'⟩ := more
    refine Or.inr ⟨write, ?_, is⟩
    rw [← is', List.drop_append]
    exact List.mem_append_left _ member

theorem seenBy_data {began : World} (before : Invariant item strict began)
    (now : Invariant item strict w) (more : began.ledger.writes <+: w.ledger.writes) :
    SeenBy began w w.ledger.data := by
  obtain ⟨rest, is⟩ := more
  have all := now.1.leads
  rw [← is] at all
  rcases before.1.leads.since all with same | ⟨write, member, same⟩
  · exact Or.inl same
  · refine Or.inr ⟨write, ?_, same⟩
    rw [← is, List.drop_left]
    exact member

theorem SeenBy.priced {began : World} {snapshot : Option Ledger} {ledger : Ledger}
    (before : Invariant item strict began) (now : Invariant item strict w)
    (more : began.ledger.writes <+: w.ledger.writes) (seen : SeenBy began w snapshot)
    (loaded : Loaded snapshot ledger) (holds : strict) : PricedLedger w ledger := by
  rcases loaded with same | ⟨-, empty⟩
  · have written : ∃ write ∈ w.ledger.writes, ledger = write.new := by
      rcases seen with is | ⟨write, member, is⟩
      · have leads := before.1.leads
        rw [← is, same] at leads
        rcases @Versioned.Leads.since _ _ none none _ [] _ rfl leads with none | ⟨write, member, is'⟩
        · cases none
        · exact ⟨write, more.subset member, Option.some.inj is'⟩
      · exact ⟨write, List.mem_of_mem_drop member, Option.some.inj (same.symm.trans is)⟩
    obtain ⟨write, member, rfl⟩ := written
    exact (now.2 holds).charges write (List.mem_append_left _ member)
  · intro key charge present
    rw [empty] at present
    cases present

end GenSubnet.Witness.Settlement
