import GenSubnet.Witness.WriteOnce

/-!
# Repeated settlements

A settlement fails only for a ledger that it has seen and that does not have its usage yet, or since
a read has failed: so it succeeds once its usage is settled, as long as the published tables keep
their digits. Credits are compared as texts, which a table may change and still extend the last one.
-/

namespace GenSubnet.Witness.Settlement
open Library Library.Effects Pricing

section Operations

variable {item : Invocation} {strict : Prop} {w w' began : World}

/-- What any step, of an operation or beside it, leaves. -/
def Onward (strict : Prop) (w w' : World) : Prop :=
  w.ledger.writes <+: w'.ledger.writes ∧ (strict → w.Kept w')

theorem Onward.trans {u : World} (first : Onward strict w w') (second : Onward strict w' u) :
    Onward strict w u :=
  ⟨first.1.trans second.1, fun holds => (first.2 holds).trans (second.2 holds)⟩

theorem steady : (rules item strict).Steady (Onward strict) where
  refl v := ⟨List.prefix_rfl, fun _ => World.Kept.refl v⟩
  trans _ _ _ first second := first.trans second
  moves _ _ _ move := ⟨move.2.1, move.2.2⟩

theorem own (v v' : World) (_ : (rules item strict).invariant v)
    (guaranteed : (rules item strict).guarantee v v') : Onward strict v v' :=
  ⟨guaranteed.2.1, guaranteed.2.2⟩

theorem later_more (later : (rules item strict).Later w w') :
    w.ledger.writes <+: w'.ledger.writes :=
  (steady.later later).1

theorem later_kept (later : (rules item strict).Later w w') (holds : strict) : w.Kept w' :=
  (steady.later later).2 holds

/-! ## The requests -/

theorem required_cases {budget : Nat} {model : String} {reply : Except Error ModelTable}
    (required : w.required budget model = some (reply, w')) :
    (∃ own ∈ w.budgets, own.table.models.contains model = true ∧ reply = .ok own.table ∧ w' = w) ∨
    (∃ fresh, w.published = some fresh ∧
      w' = { w with budgets := w.budgets.set budget fresh } ∧
      (fresh.table.models.contains model = true ∧ reply = .ok fresh.table ∨
        fresh.table.models.contains model = false ∧ reply = .error (.rejected .unknownModel))) ∨
    (reply = .error .unavailable ∧ w' = w) := by
  unfold World.required at required
  split at required
  · cases required
  · rename_i own at_b
    split at required
    · rename_i known
      cases required
      exact Or.inl ⟨own, List.mem_of_getElem? at_b, known, rfl, rfl⟩
    · split at required
      · cases required
        exact Or.inr (Or.inr ⟨rfl, rfl⟩)
      · rename_i fresh same
        split at required
        · split at required
          · rename_i known
            cases required
            exact Or.inr (Or.inl ⟨fresh, same, rfl, Or.inl ⟨known, rfl⟩⟩)
          · rename_i unknown
            cases required
            exact Or.inr (Or.inl ⟨fresh, same, rfl, Or.inr ⟨Bool.eq_false_iff.mpr unknown, rfl⟩⟩)
        · cases required
          exact Or.inr (Or.inr ⟨rfl, rfl⟩)

theorem required_moves (invariant : Invariant item strict w) {budget : Nat} {model : String}
    {reply : Except Error ModelTable} (required : w.required budget model = some (reply, w')) :
    Moves item strict w w' := by
  rcases required_cases required with ⟨own, -, -, -, rfl⟩ | ⟨fresh, same, rfl, -⟩ | ⟨-, rfl⟩
  · exact invariant.refl
  · apply @Invariant.tables item strict w invariant w.published
    · exact fun _ p same => ⟨p, same, ModelTable.Keeps.refl _⟩
    · intro holds own member
      rcases List.mem_or_eq_of_mem_set member with member | rfl
      · exact (invariant.2 holds).budgets own member
      · exact ⟨own, same, ModelTable.Keeps.refl _⟩
  · exact invariant.refl

theorem ensures_load (before : Invariant item strict began)
    (more : began.ledger.writes <+: w.ledger.writes) :
    (rules item strict).Ensures (fun outcome v => (∀ s, outcome = .ok s → SeenBy began v s) ∧
      ∀ e, outcome = .error e → e = .unavailable) (ask .load) w := by
  apply Rules.Ensures.request
  rintro v later kept reply v' ⟨c, answered⟩
  cases c with
  | done =>
      cases answered
      refine ⟨kept.refl, fun v'' after _ => ⟨?_, nofun⟩⟩
      rintro s ⟨⟩
      exact (seenBy_data before kept (more.trans (later_more later))).mono (later_more after)
  | fail =>
      cases answered
      exact ⟨kept.refl, fun v'' after _ => ⟨nofun, by rintro e ⟨⟩; rfl⟩⟩
  | fate fate | seed seed => cases answered

theorem ensures_seed :
    (rules item strict).Ensures (fun outcome _ => ∀ e, outcome ≠ .error e) (ask .seed) w := by
  apply Rules.Ensures.request
  rintro v later kept reply v' ⟨c, answered⟩
  cases c with
  | seed seed =>
      cases answered
      exact ⟨kept.refl, fun v'' _ _ => nofun⟩
  | done | fail | fate fate => cases answered

theorem ensures_pricingHash (budget : Nat) :
    (rules item strict).Ensures (fun outcome _ => ∀ e, outcome ≠ .error e)
      (ask (.pricingHash budget)) w := by
  apply Rules.Ensures.request
  rintro v later kept reply v' ⟨c, answered⟩
  cases c with
  | done =>
      obtain ⟨own, -, is⟩ := Option.map_eq_some_iff.mp answered
      cases is
      exact ⟨kept.refl, fun v'' _ _ => nofun⟩
  | seed seed | fail | fate fate => cases answered

theorem ensures_requireModel (budget : Nat) (model : String) :
    (rules item strict).Ensures (fun outcome v =>
      (∀ table, outcome = .ok table → table.models.contains model = true ∧
        (strict → ∃ p, v.published = some p ∧ p.table.Keeps table)) ∧
      ∀ e, outcome = .error e → strict →
        (∃ p, w.published = some p ∧ p.table.models.contains model = true) → e = .unavailable)
      (ask (.requireModel budget model)) w := by
  apply Rules.Ensures.request
  rintro v later kept reply v' ⟨c, answered⟩
  cases c with
  | done =>
      change v.required budget model = some (reply, v') at answered
      refine ⟨required_moves kept answered, fun v'' after _ => ⟨?_, ?_⟩⟩
      · rintro table rfl
        have now : ∀ p, v.published = some p → p.table.Keeps table →
            strict → ∃ p, v''.published = some p ∧ p.table.Keeps table := by
          intro p same keeps holds
          have moved := (required_moves kept answered).2.2 holds
          obtain ⟨p', same', keeps'⟩ := (moved.trans (later_kept after holds)) p same
          exact ⟨p', same', keeps'.trans keeps⟩
        rcases required_cases answered with ⟨own, member, known, is, -⟩ |
          ⟨fresh, same, -, ⟨known, is⟩ | ⟨-, is⟩⟩ | ⟨is, -⟩
        · obtain rfl := Except.ok.inj is
          refine ⟨known, fun holds => ?_⟩
          obtain ⟨p, same, keeps⟩ := (kept.2 holds).budgets own member
          exact now p same keeps holds
        · obtain rfl := Except.ok.inj is
          exact ⟨known, now fresh same (ModelTable.Keeps.refl _)⟩
        · cases is
        · cases is
      · rintro e rfl holds ⟨p, same, known⟩
        obtain ⟨p', same', keeps⟩ := later_kept later holds p same
        rcases required_cases answered with ⟨own, -, -, is, -⟩ |
          ⟨fresh, is', -, ⟨-, is⟩ | ⟨unknown, is⟩⟩ | ⟨is, -⟩
        · cases is
        · cases is
        · obtain rfl := Option.some.inj (same'.symm.trans is')
          rw [contains_of_keeps keeps known] at unknown
          cases unknown
        · exact Except.error.inj is
  | fail =>
      change v.unread budget model = some (reply, v') at answered
      unfold World.unread at answered
      split at answered
      · cases answered
      · split at answered
        · cases answered
        · cases answered
          exact ⟨kept.refl, fun v'' _ _ => ⟨by rintro table ⟨⟩, by rintro e ⟨⟩ _ _; rfl⟩⟩
  | fate fate | seed seed => cases answered

theorem ensures_save {write : Put Ledger Change} (related : Related item write)
    (priced : strict → PricedLedger w write.new) :
    (rules item strict).Ensures (fun _ _ => True) (ask (.save write)) w := by
  apply Rules.Ensures.request
  rintro v later kept reply v' ⟨c, answered⟩
  cases c with
  | fate fate =>
      obtain ⟨ledger, saved, is⟩ := Option.map_eq_some_iff.mp answered
      cases is
      obtain ⟨more, members⟩ := Versioned.save_writes saved
      refine ⟨kept.ledger (kept.1.save related saved) more ?_, fun _ _ _ => trivial⟩
      intro holds other member
      rcases members other member with rfl | member
      · exact (priced holds).kept (later_kept later holds)
      · exact (kept.2 holds).charges other member
  | done | fail | seed seed => cases answered

/-! ## The operations -/

variable (item) in
/-- The call has seen a ledger that does not have the usage. -/
def SeenOther (began w : World) (usage : Option Usage) (exchangeId : Option Uuid) : Prop :=
  ∃ snapshot ledger, SeenBy began w snapshot ∧ Loaded snapshot ledger ∧
    ¬Repeats item ledger usage exchangeId

theorem SeenOther.mono {usage : Option Usage} {exchangeId : Option Uuid}
    (seen : SeenOther item began w usage exchangeId)
    (more : w.ledger.writes <+: w'.ledger.writes) : SeenOther item began w' usage exchangeId := by
  obtain ⟨snapshot, ledger, by_, loaded, other⟩ := seen
  exact ⟨snapshot, ledger, by_.mono more, loaded, other⟩

theorem ensures_opened (budget : Nat) (snapshot : Option Ledger) :
    (rules item strict).Ensures (fun outcome _ => ∃ ledger, outcome = .ok ledger ∧
      Loaded snapshot ledger) (opened item budget snapshot) w := by
  cases snapshot with
  | some ledger => exact Rules.Ensures.pure fun _ _ _ => ⟨ledger, rfl, Or.inl rfl⟩
  | none =>
      apply Rules.Ensures.bind ensures_seed
      · intro seed v _ _
        apply Rules.Ensures.bind (ensures_pricingHash budget)
        · intro hash v' _ _
          exact Rules.Ensures.pure fun _ _ _ => ⟨_, rfl, Or.inr ⟨rfl, rfl⟩⟩
        · exact fun e v' _ none => absurd rfl (none e)
      · exact fun e v _ none => absurd rfl (none e)

theorem ensures_loadLedger (before : Invariant item strict began)
    (more : began.ledger.writes <+: w.ledger.writes) (budget : Nat) :
    (rules item strict).Ensures (fun outcome v =>
      (∀ loaded, outcome = .ok loaded → SeenBy began v loaded.2 ∧ Loaded loaded.2 loaded.1 ∧
        loaded.1.scopeKey = item.scope.key) ∧
      ∀ e, outcome = .error e → e ≠ .unavailable → ∃ snapshot ledger,
        SeenBy began v snapshot ∧ Loaded snapshot ledger ∧ ledger.scopeKey ≠ item.scope.key)
      (load item budget) w := by
  apply Rules.Ensures.bindFrom steady own (ensures_load before more)
  · rintro snapshot v _ _ ⟨seen, -⟩
    apply Rules.Ensures.bindFrom steady own (ensures_opened budget snapshot)
    · rintro ledger v' _ onward ⟨_, ⟨⟩, loaded⟩
      have seen' := (seen snapshot rfl).mono onward.1
      split
      · rename_i differs
        apply Rules.Ensures.throw
        intro u later _
        exact ⟨nofun, fun _ _ _ => ⟨snapshot, ledger, seen'.mono (later_more later), loaded, differs⟩⟩
      · rename_i same
        apply Rules.Ensures.pure
        intro u later _
        refine ⟨?_, nofun⟩
        rintro _ ⟨⟩
        exact ⟨seen'.mono (later_more later), loaded, not_not.mp same⟩
    · rintro e v' _ _ ⟨_, ⟨⟩, _⟩
  · rintro e v _ _ ⟨-, failed⟩
    refine ⟨nofun, ?_⟩
    rintro _ ⟨⟩ other
    exact absurd (failed e rfl) other

theorem SeenBy.pricedNow {snapshot : Option Ledger} {ledger : Ledger}
    (before : Invariant item strict began) (now : (rules item strict).invariant w)
    (more : began.ledger.writes <+: w.ledger.writes) (seen : SeenBy began w snapshot)
    (loaded : Loaded snapshot ledger) : strict → PricedLedger w ledger :=
  fun holds => seen.priced before now more loaded holds

theorem ensures_price (budget : Nat) {charge : Charge} (normalized : Option Tokens)
    (priced : strict → PricedBy w charge) :
    (rules item strict).Ensures (fun outcome v =>
      (∀ credits, outcome = .ok credits → strict → ∃ p, v.published = some p ∧
        p.table.models.contains charge.model = true ∧
        credits = normalized.bind (p.table.credits charge.model)) ∧
      ∀ e, outcome = .error e → strict → e = .unavailable)
      (price budget charge.model normalized) w := by
  cases normalized with
  | none =>
      apply Rules.Ensures.pure
      intro v later _
      refine ⟨?_, nofun⟩
      rintro _ ⟨⟩ holds
      obtain ⟨p, same, known, -⟩ := (priced holds).kept (later_kept later holds)
      exact ⟨p, same, known, rfl⟩
  | some usage =>
      apply Rules.Ensures.bindFrom steady own (ensures_requireModel budget charge.model)
      · rintro table v _ _ ⟨read, -⟩
        obtain ⟨known, part⟩ := read table rfl
        apply Rules.Ensures.pure
        intro v' later _
        refine ⟨?_, nofun⟩
        rintro _ ⟨⟩ holds
        obtain ⟨p, same, keeps⟩ := part holds
        obtain ⟨p', same', keeps'⟩ := later_kept later holds p same
        have whole := keeps'.trans keeps
        refine ⟨p', same', contains_of_keeps whole known, ?_⟩
        rw [credits_of_keeps whole known]
        rfl
      · rintro e v _ _ ⟨-, failed⟩
        refine ⟨nofun, ?_⟩
        rintro _ ⟨⟩ holds
        obtain ⟨p, same, known, -⟩ := priced holds
        exact failed e rfl holds ⟨p, same, known⟩

theorem PricedLedger.set {ledger : Ledger} (priced : PricedLedger w ledger) {key : String}
    {charge : Charge} (new : PricedBy w charge) (seed : Nat) :
    PricedLedger w (ledger.revise seed (ledger.charges.set key charge)) := by
  intro other found present
  change (ledger.charges.set key charge).get other = some found at present
  rw [Dict.get_set] at present
  split at present
  · obtain rfl := Option.some.inj present
    exact new
  · exact priced other found present

theorem ensures_saveOr {write : Put Ledger Change} {again : Task Unit}
    {post : Except Error Unit → World → Prop} (related : Related item write)
    (priced : strict → PricedLedger w write.new) (saved : ∀ v, post (.ok ()) v)
    (busy : ∀ v, (rules item strict).invariant v → Onward strict w v →
      (rules item strict).Ensures post again v)
    (failed : ∀ e v, Onward strict w v → post (.error e) v) :
    (rules item strict).Ensures post (save write again) w := by
  apply Rules.Ensures.catchFrom steady own (ensures_save related priced)
  · exact fun _ v _ _ _ => saved v
  · intro e v kept onward _
    cases e with
    | conflict => exact busy v kept onward
    | _ => exact Rules.Ensures.throw fun u later _ =>
        failed _ u (onward.trans (steady.later later))

theorem Repeats.selected {ledger : Ledger} {usage : Option Usage} {exchangeId : Option Uuid}
    {normalized : Option Tokens} (repeats : Repeats item ledger usage exchangeId)
    (is : Usage.normalize usage = .ok normalized) :
    ∃ key charge, select item ledger normalized exchangeId = .ok (some (key, charge)) ∧
      charge.state ≠ .possible ∧ charge.usage = normalized := by
  obtain ⟨-, other, key, charge, is', selected, final, same⟩ := repeats
  obtain rfl := Except.ok.inj (is.symm.trans is')
  exact ⟨key, charge, selected, final, same⟩

theorem ensures_settleLoop (before : Invariant item strict began) (budget : Nat)
    {usage : Option Usage} {normalized : Option Tokens} (exchangeId : Option Uuid)
    (is : Usage.normalize usage = .ok normalized) (n : Nat) :
    ∀ w, began.ledger.writes <+: w.ledger.writes →
      (n = 0 → strict → SeenOther item began w usage exchangeId) →
      (rules item strict).Ensures (fun outcome v => ∀ e, outcome = .error e → e ≠ .unavailable →
        strict → SeenOther item began v usage exchangeId)
        (settleLoop item budget usage normalized exchangeId n) w := by
  induction n with
  | zero =>
      intro w _ seen
      apply Rules.Ensures.throw
      intro v later _ e _ _ holds
      exact (seen rfl holds).mono (later_more later)
  | succ n ih =>
      intro w more _
      apply Rules.Ensures.bindFrom steady own (ensures_loadLedger before more budget)
      · rintro ⟨ledger, snapshot⟩ v kept onward ⟨found, -⟩
        obtain ⟨seen, loaded, scope⟩ := found _ rfl
        have more' := more.trans onward.1
        -- Whatever fails from here on, this ledger is one without the usage.
        have other : ¬Repeats item ledger usage exchangeId → ∀ v', Onward strict v v' →
            SeenOther item began v' usage exchangeId :=
          fun differs v' later => ⟨snapshot, ledger, seen.mono later.1, loaded, differs⟩
        have priced := seen.pricedNow before kept more' loaded
        dsimp only
        cases chosen : select item ledger normalized exchangeId with
        | error reason =>
            apply Rules.Ensures.throw
            intro v' later _ e _ _ _
            apply other _ v' (steady.later later)
            intro repeats
            obtain ⟨key, charge, selected, -⟩ := repeats.selected is
            rw [chosen] at selected
            cases selected
        | ok choice =>
            cases choice with
            | none => exact Rules.Ensures.pure fun _ _ _ => nofun
            | some choice =>
                obtain ⟨key, charge⟩ := choice
                have present := (select_eq chosen).1
                have pricedCharge : strict → PricedBy v charge := fun holds =>
                  priced holds key charge present
                have only : Repeats item ledger usage exchangeId →
                    charge.state ≠ .possible ∧ charge.usage = normalized := by
                  intro repeats
                  obtain ⟨key', charge', selected, final, same⟩ := repeats.selected is
                  rw [chosen] at selected
                  cases selected
                  exact ⟨final, same⟩
                dsimp only
                apply Rules.Ensures.bindFrom steady own (ensures_price budget normalized pricedCharge)
                · rintro credits v' kept' onward' ⟨given, -⟩
                  have given := given credits rfl
                  split
                  · rename_i final
                    split
                    · rename_i differs
                      apply Rules.Ensures.throw
                      intro u later _ e _ _ holds
                      have since := onward'.trans (steady.later later)
                      apply other _ u since
                      intro repeats
                      obtain ⟨-, same⟩ := only repeats
                      obtain ⟨p, published, -, credits'⟩ := given holds
                      obtain ⟨p', published', -, credits''⟩ :=
                        (pricedCharge holds).kept (onward'.2 holds)
                      obtain rfl := Option.some.inj (published.symm.trans published')
                      rcases differs with differs | differs
                      · exact differs same
                      · rw [credits'', credits', same] at differs
                        exact differs rfl
                    · exact Rules.Ensures.pure fun _ _ _ => nofun
                  · rename_i possible
                    have notYet : ¬Repeats item ledger usage exchangeId := fun repeats =>
                      possible (only repeats).1
                    apply Rules.Ensures.bindFrom steady own ensures_seed
                    · intro seed u _ drawn _
                      have since := onward'.trans drawn
                      apply ensures_saveOr
                      · exact ⟨ledger, seed, loaded, scope, normalized, key, charge, credits, is,
                          chosen, not_not.mp possible, rfl⟩
                      · intro holds
                        apply ((priced holds).kept (since.2 holds)).set
                        obtain ⟨p, published, known, credits'⟩ := given holds
                        have settled : PricedBy v' (charge.settled normalized credits) :=
                          ⟨p, published, known, credits'⟩
                        exact settled.kept (drawn.2 holds)
                      · exact fun _ => nofun
                      · intro u' _ last
                        apply ih u' ((more'.trans since.1).trans last.1)
                        intro _ _
                        exact other notYet u' (since.trans last)
                      · intro e u' last _ _ _ _
                        exact other notYet u' (since.trans last)
                    · exact fun e u _ _ none => absurd rfl (none e)
                · rintro e v' _ _ ⟨-, failed⟩ _ ⟨⟩ unavailable holds
                  exact absurd (failed e rfl holds) unavailable
      · rintro e v _ _ ⟨-, rejected⟩ _ ⟨⟩ unavailable _
        obtain ⟨snapshot, ledger, seen, loaded, differs⟩ := rejected e rfl unavailable
        exact ⟨snapshot, ledger, seen, loaded, fun repeats => differs repeats.1⟩

theorem exists_loaded (item : Invocation) (snapshot : Option Ledger) :
    ∃ ledger, Loaded snapshot ledger := by
  cases snapshot with
  | some ledger => exact ⟨ledger, Or.inl rfl⟩
  | none => exact ⟨newLedger "" item.scope 0, Or.inr ⟨rfl, rfl⟩⟩

theorem ensures_settle (before : Invariant item strict began) (budget : Nat) (usage : Option Usage)
    (exchangeId : Option Uuid) :
    (rules item strict).Ensures (fun outcome v => ∀ e, outcome = .error e → e ≠ .unavailable →
      strict → SeenOther item began v usage exchangeId)
      (settle item budget usage exchangeId) began := by
  unfold settle
  split
  · rename_i reason fails
    apply Rules.Ensures.throw
    intro v later kept e _ _ _
    have seen := seenBy_data before kept (later_more later)
    obtain ⟨ledger, loaded⟩ := exists_loaded item v.ledger.data
    refine ⟨v.ledger.data, ledger, seen, loaded, ?_⟩
    rintro ⟨-, normalized, key, charge, is, -⟩
    rw [fails] at is
    cases is
  · rename_i normalized is
    exact ensures_settleLoop before budget exchangeId is 16 began List.prefix_rfl nofun

/-- The published table has the model. -/
def Known (w : World) (model : String) : Prop :=
  ∃ p, w.published = some p ∧ p.table.models.contains model = true

theorem Known.kept {model : String} (known : Known w model) (kept : w.Kept w') : Known w' model := by
  obtain ⟨p, same, has⟩ := known
  obtain ⟨p', same', keeps⟩ := kept p same
  exact ⟨p', same', contains_of_keeps keeps has⟩

theorem ensures_loadOr (before : Invariant item strict began)
    (more : began.ledger.writes <+: w.ledger.writes) (budget : Nat) :
    (rules item strict).Ensures (fun outcome v => ∀ loaded, outcome = .ok loaded →
      SeenBy began v loaded.2 ∧ Loaded loaded.2 loaded.1 ∧ loaded.1.scopeKey = item.scope.key)
      (tryCatch (load item budget) fun _ => throw (.notReserved .ledgerReadFailed)) w := by
  apply Rules.Ensures.catchFrom steady own (ensures_loadLedger before more budget)
  · exact fun loaded v _ _ holds => holds.1
  · exact fun e v _ _ _ => Rules.Ensures.throw fun _ _ _ => nofun

theorem ensures_reserveLoop (before : Invariant item strict began) (budget : Nat)
    (exchangeId : Uuid) (model : String) (n : Nat) :
    ∀ w, began.ledger.writes <+: w.ledger.writes → (strict → Known w model) →
      (rules item strict).Ensures (fun _ _ => True)
        (reserveLoop item budget exchangeId model n) w := by
  induction n with
  | zero => exact fun w _ _ => Rules.Ensures.throw fun _ _ _ => trivial
  | succ n ih =>
      intro w more known
      refine Rules.Ensures.bindFrom steady own (ensures_loadOr before more budget) ?_
        (fun _ _ _ _ _ => trivial)
      rintro ⟨ledger, snapshot⟩ v kept onward found
      obtain ⟨seen, loaded, scope⟩ := found _ rfl
      have priced := seen.pricedNow before kept (more.trans onward.1) loaded
      apply Rules.Ensures.bindFrom steady own ensures_seed
      · intro seed v' _ drawn _
        have since := onward.trans drawn
        cases reserved : ledger.reserve item.base seed exchangeId model with
        | error reason => exact Rules.Ensures.throw fun _ _ _ => trivial
        | ok after =>
            have pricedAfter : strict → PricedLedger v' after := by
              intro holds
              rw [(reserve_eq reserved).2]
              apply ((priced holds).kept (drawn.2 holds)).set
              obtain ⟨p, same, has⟩ := (known holds).kept (since.2 holds)
              exact ⟨p, same, has, rfl⟩
            have related : Related item ⟨.reserve exchangeId, snapshot, after⟩ :=
              ⟨ledger, seed, loaded, scope, model, reserved⟩
            apply Rules.Ensures.catchFrom steady own (ensures_save related pricedAfter)
            · exact fun _ _ _ _ _ => trivial
            · intro e u _ last _
              cases e with
              | conflict =>
                  apply ih u ((more.trans since.1).trans last.1)
                  exact fun holds => (known holds).kept ((since.trans last).2 holds)
              | writeRejected => exact Rules.Ensures.throw fun _ _ _ => trivial
              | _ => exact Rules.Ensures.throw fun _ _ _ => trivial
      · exact fun e v' _ _ none => absurd rfl (none e)

theorem ensures_knownModel (budget : Nat) (model : String) :
    (rules item strict).Ensures
      (fun outcome v => ∀ table, outcome = .ok table → strict → Known v model)
      (tryCatch (ask (.requireModel budget model)) fun
        | .rejected _ => throw (.notReserved .unsupportedModel)
        | _ => throw (.notReserved .pricingUnavailable)) w := by
  apply Rules.Ensures.catchFrom steady own (ensures_requireModel budget model)
  · rintro table v _ _ ⟨read, -⟩ _ ⟨⟩ holds
    obtain ⟨has, part⟩ := read table rfl
    obtain ⟨p, same, keeps⟩ := part holds
    exact ⟨p, same, contains_of_keeps keeps has⟩
  · intro e v _ _ _
    cases e <;> exact Rules.Ensures.throw fun _ _ _ => nofun

theorem ensures_reserve (before : Invariant item strict began) (budget : Nat) (exchangeId : Uuid)
    (body : Body) :
    (rules item strict).Ensures (fun _ _ => True) (reserve item budget exchangeId body) began := by
  unfold reserve
  split
  · exact Rules.Ensures.throw fun _ _ _ => trivial
  split
  · exact Rules.Ensures.throw fun _ _ _ => trivial
  apply Rules.Ensures.bindFrom steady own (ensures_knownModel budget body.model)
  · intro table v _ onward known
    exact ensures_reserveLoop before budget exchangeId body.model 16 v onward.1 (known table rfl)
  · exact fun _ _ _ _ _ => trivial

theorem ensures_discardLoop (before : Invariant item strict began) (budget : Nat)
    (exchangeId : Uuid) (n : Nat) :
    ∀ w, began.ledger.writes <+: w.ledger.writes →
      (rules item strict).Ensures (fun _ _ => True) (discardLoop item budget exchangeId n) w := by
  induction n with
  | zero => exact fun w _ => Rules.Ensures.throw fun _ _ _ => trivial
  | succ n ih =>
      intro w more
      refine Rules.Ensures.bindFrom steady own (ensures_loadLedger before more budget) ?_
        (fun _ _ _ _ _ => trivial)
      rintro ⟨ledger, snapshot⟩ v kept onward ⟨found, -⟩
      obtain ⟨seen, loaded, scope⟩ := found _ rfl
      have priced := seen.pricedNow before kept (more.trans onward.1) loaded
      apply Rules.Ensures.bindFrom steady own ensures_seed
      · intro seed v' _ drawn _
        have since := onward.trans drawn
        cases discarded : ledger.discard item.base seed exchangeId with
        | none => exact Rules.Ensures.pure fun _ _ _ => trivial
        | some after =>
            have pricedAfter : strict → PricedLedger v' after := by
              intro holds key charge present
              rw [discard_eq discarded] at present
              change (ledger.charges.filter _).get key = _ at present
              rw [Dict.get_filter, Option.filter_eq_some_iff] at present
              exact (priced holds key charge present.1).kept (drawn.2 holds)
            apply ensures_saveOr ⟨ledger, seed, loaded, scope, discarded⟩ pricedAfter
            · exact fun _ => trivial
            · exact fun u _ last => ih u ((more.trans since.1).trans last.1)
            · exact fun _ _ _ => trivial
      · exact fun e v' _ _ none => absurd rfl (none e)

/-! ## The system -/

variable (item) in
/-- What an operation ensures when it ends. -/
def Promise (strict : Prop) : Operation → World → Except Error Unit → World → Prop
  | .settle _ usage exchangeId, began, outcome, w => Invariant item strict began ∧
      began.ledger.writes <+: w.ledger.writes ∧
      ∀ e, outcome = .error e → e ≠ .unavailable → strict → SeenOther item began w usage exchangeId
  | _, _, _, _ => True

theorem follows (strict : Prop) : (system item).Follows (rules item strict) (Promise item strict)
    (fun w m => strict → KeepsDigits w m) where
  move w m w' invariant meets moved := move_moves invariant meets moved
  answer w request c reply w' _ answered := ⟨c, answered⟩
  body k w invariant := by
    cases k with
    | reserve budget exchangeId body => exact ensures_reserve invariant budget exchangeId body
    | discard budget exchangeId =>
        exact ensures_discardLoop invariant budget exchangeId 16 w List.prefix_rfl
    | settle budget usage exchangeId =>
        exact ((ensures_settle invariant budget usage exchangeId).frame steady own).mono
          fun outcome v _ holds => ⟨invariant, holds.1.1, holds.2⟩
  others _ _ _ move := move.1
  guarantee _ _ _ move := move

theorem safe_initial (strict : Prop) :
    Crowd.Safe (rules item strict) (Promise item strict) ⟨{}, []⟩ where
  invariant :=
    ⟨Versioned.sound_initial none _, fun _ => ⟨by simp, by simp⟩⟩
  processes := by simp

theorem safe_run {strict : Prop} {events : List (CrowdEvent Move Choice Operation)}
    {s : Crowd World Request Request.Reply Error Unit Operation}
    (ran : run (system item).step ⟨{}, []⟩ events = some s)
    (meets : strict →
      Throughout (system item).step (MovesMeet KeepsDigits) ⟨{}, []⟩ events) :
    s.Safe (rules item strict) (Promise item strict) := by
  apply (follows strict).run _ ran (safe_initial strict)
  by_cases holds : strict
  · apply (meets holds).mono
    intro u event expected
    cases event with
    | move m => exact fun _ => expected
    | start k | answer i c => trivial
  · apply throughout_of_forall
    intro event _ u
    cases event with
    | move m => exact fun known => absurd known holds
    | start k | answer i c => trivial

theorem no_writes {before after : Option Ledger} {ledger : Ledger}
    {writes : List (Put Ledger Change)} (leads : Versioned.Leads before writes after)
    (related : ∀ write ∈ writes, Related item write)
    (kept : ∀ write ∈ writes, ∀ exchange, write.tag ≠ .discard exchange)
    (current : before = some ledger) (only : OnlyBase item before) {usage : Option Usage}
    {exchangeId : Option Uuid} (repeats : Repeats item ledger usage exchangeId) : writes = [] := by
  cases writes with
  | nil => rfl
  | cons write rest =>
      obtain ⟨-, normalized, key, charge, -, selected, final, -⟩ := repeats
      have found := (select_eq selected).1
      obtain rfl := only key charge (by rw [current]; exact found)
      obtain ⟨loaded, seed, isLoaded, -, change⟩ := related write List.mem_cons_self
      have same : loaded = ledger := by
        rw [← leads.1, current] at isLoaded
        rcases isLoaded with same | ⟨none, -⟩
        · exact (Option.some.inj same).symm
        · cases none
      cases tag : write.tag with
      | reserve exchange =>
          rw [tag] at change
          obtain ⟨model, reserved⟩ := change
          rw [same] at reserved
          have absent := (reserve_eq reserved).1
          rw [Dict.contains_of_get found] at absent
          cases absent
      | discard exchange => exact absurd tag (kept write List.mem_cons_self exchange)
      | settle usage' exchangeId' =>
          rw [tag] at change
          obtain ⟨normalized', key', charge', credits, -, selected', possible, -⟩ := change
          rw [same] at selected'
          have found' := (select_eq selected').1
          obtain rfl := only key' charge' (by rw [current]; exact found')
          rw [found] at found'
          obtain rfl := Option.some.inj found'
          exact absurd possible final

theorem Invariant.onlyBase (invariant : Invariant item strict w) : OnlyBase item w.ledger.data :=
  invariant.1.leads.keeps (fun write member => (invariant.1.writes write member).onlyBase) nofun

/-- In every run, a settlement changes neither a charge that is final nor that of another exchange,
and the ledger has one charge at most. Where no published table changes the digits of a known rate,
a settlement whose usage is settled already, and that no discard overtakes, ends well without a
write, unless a read fails. -/
theorem settlement_write_once (item : Invocation)
    {events : List (CrowdEvent Move Choice Operation)}
    {s : Crowd World Request Request.Reply Error Unit Operation}
    (ran : run (system item).step ⟨{}, []⟩ events = some s) :
    (∀ write ∈ s.world.ledger.writes, ∀ usage exchangeId, write.tag = .settle usage exchangeId →
      (∀ key charge, chargeAt write.old key = some charge → charge.state ≠ .possible →
        write.new.charges.get key = some charge) ∧
      ∀ exchange charge, exchangeId = some exchange →
        chargeAt write.old item.base = some charge → charge.exchangeId ≠ exchange →
        write.new.charges.get item.base = some charge) ∧
    (∀ ledger, s.world.ledger.data = some ledger → ledger.charges.size ≤ 1) ∧
    (Throughout (system item).step (MovesMeet KeepsDigits) ⟨{}, []⟩ events →
      ∀ budget usage exchangeId began outcome ledger,
        s.Ended (.settle budget usage exchangeId) began outcome →
        began.ledger.data = some ledger → Repeats item ledger usage exchangeId →
        (∀ write ∈ s.world.ledger.writes.drop began.ledger.writes.length, ∀ exchange,
          write.tag ≠ .discard exchange) →
        (outcome = .ok () ∨ outcome = .error .unavailable) ∧
          s.world.ledger.writes = began.ledger.writes) := by
  have always : s.Safe (rules item False) (Promise item False) := safe_run ran nofun
  refine ⟨?_, ?_, ?_⟩
  · intro write member usage exchangeId tag
    have related := always.invariant.1.writes write member
    refine ⟨fun key charge present final => related.final tag present final, ?_⟩
    rintro exchange charge rfl present superseded
    exact related.current tag present superseded
  · intro ledger current
    have only := always.invariant.onlyBase
    rw [current] at only
    exact size_le_one only
  · intro meets budget usage exchangeId began outcome ledger ended current repeats kept
    have safe : s.Safe (rules item True) (Promise item True) := safe_run ran fun _ => meets
    obtain ⟨before, more, failed⟩ := safe.ended ended
    obtain ⟨later, is⟩ := more
    have all := safe.invariant.1
    rw [← is, List.drop_left] at kept
    have none : later = [] := by
      have leads : Versioned.Leads began.ledger.data later s.world.ledger.data := by
        have leads := all.leads
        rw [← is] at leads
        exact before.1.leads.rest leads
      apply no_writes leads _ kept current before.onlyBase repeats
      intro write member
      apply all.writes
      rw [← is]
      exact List.mem_append_right _ member
    rw [none, List.append_nil] at is
    refine ⟨?_, is.symm⟩
    cases outcome with
    | ok u => exact Or.inl rfl
    | error e =>
        by_cases unavailable : e = .unavailable
        · exact Or.inr (congrArg _ unavailable)
        · obtain ⟨snapshot, seen, by_, loaded, other⟩ := failed e rfl unavailable trivial
          rcases by_ with same | ⟨write, member, -⟩
          · rw [same, current] at loaded
            rcases loaded with same | ⟨none, -⟩
            · obtain rfl := Option.some.inj same
              exact absurd repeats other
            · cases none
          · rw [← is, List.drop_length] at member
            cases member

end Operations

/-! ## A table with other digits -/

namespace Digits

def item : Invocation where
  scope := ⟨"deployment", "round", "hotkey"⟩
  request := { provider := .api, requestSha256 := "sha256" }
  base := "call"
  exchangeKey := fun _ => "exchange"

/-- A table whose models all have one rate. -/
def published (models : List String) (rate : Decimal) : Published where
  table :=
    { callsPerPrompt := 1, creditsPerPrompt := ⟨100, 0⟩, longContextAboveInputTokens := 1000
      models := models.foldl (fun d model => d.set model ⟨rate, rate, rate, rate⟩) Dict.empty }
  sha256 := "pricing"

def usage : Option Usage := some (.reported (some 1) (some 1) none)

def exchange : Uuid := .drawn 0 0

/-- A Budget reserves the call and settles it, at 10 credits a token. -/
def settled : List (CrowdEvent Move Choice Operation) :=
  [.move (.publish (published ["model"] ⟨10, 0⟩)), .move .create,
    .start (.reserve 0 exchange ⟨"sha256", "model", none⟩),
    .answer 0 .done, .answer 0 .done, .answer 0 (.seed 1), .answer 0 .done, .answer 0 (.seed 2),
    .answer 0 (.fate .saved),
    .start (.settle 0 usage none),
    .answer 1 .done, .answer 1 .done, .answer 1 (.seed 3), .answer 1 (.fate .saved)]

/-- The ledger then. -/
def ledger : Ledger where
  revision := .drawn 3 1
  scopeKey := item.scope.key
  pricingSha256 := "pricing"
  charges := Dict.empty.set "call" ⟨exchange, "model", .settled, some "20", some ⟨1, 1⟩⟩

theorem repeats : Repeats item ledger usage none :=
  ⟨rfl, some ⟨1, 1⟩, "call", _, rfl, rfl, by decide, rfl⟩

/-- The third call has begun with this ledger and ended so, and no write has been made since. -/
def Ends (budget : Nat) (outcome : Except Error Unit)
    (s : Crowd World Request Request.Reply Error Unit Operation) : Prop :=
  s.outcome 2 = some (.settle budget usage none, outcome) ∧
    (s.processes[2]?.map fun p => p.began.ledger.data) = some (some ledger) ∧
    (s.processes[2]?.map fun p => p.began.ledger.writes.length) = some s.world.ledger.writes.length

instance (budget : Nat) (outcome : Except Error Unit) : DecidablePred (Ends budget outcome) :=
  fun _ => inferInstanceAs (Decidable (_ ∧ _ ∧ _))

theorem Ends.began {budget : Nat} {outcome : Except Error Unit}
    {s : Crowd World Request Request.Reply Error Unit Operation} (ends : Ends budget outcome s) :
    ∃ began, s.Ended (.settle budget usage none) began outcome ∧
      began.ledger.data = some ledger ∧
      s.world.ledger.writes.drop began.ledger.writes.length = [] := by
  obtain ⟨same, data, length⟩ := ends
  obtain ⟨began, is, ended⟩ := Crowd.ended_of_outcome same
  obtain ⟨p, at_p, rfl⟩ := Option.map_eq_some_iff.mp is
  rw [at_p] at data length
  refine ⟨p.began, ended, Option.some.inj data, ?_⟩
  apply List.drop_eq_nil_of_le
  exact le_of_eq (Option.some.inj length).symm

/-- The settlement is repeated, with the table as it was. -/
def again : List (CrowdEvent Move Choice Operation) :=
  settled ++ [.start (.settle 0 usage none), .answer 2 .done, .answer 2 .done]

/-- Another model is published, in a table that writes the rate of the first as 10.0. -/
def rewritten : List (CrowdEvent Move Choice Operation) :=
  settled ++ [.move (.publish (published ["model", "other"] ⟨100, -1⟩)), .move .create,
    .start (.settle 1 usage none), .answer 2 .done, .answer 2 .done]

end Digits

theorem settlement_write_once_repeated :
    ∃ s began outcome, run (system Digits.item).step ⟨{}, []⟩ Digits.again = some s ∧
      s.Ended (.settle 0 Digits.usage none) began outcome ∧
      (outcome = .ok () ∨ outcome = .error .unavailable) ∧
      s.world.ledger.writes = began.ledger.writes := by
  have ends : (run (system Digits.item).step ⟨{}, []⟩ Digits.again).any
      (fun s => Digits.Ends 0 (.ok ()) s) = true := by
    decide +kernel
  obtain ⟨s, ran, holds⟩ := (Option.any_eq_true _ _).mp ends
  obtain ⟨began, ended, data, none⟩ := (of_decide_eq_true holds).began
  have meets : Throughout (system Digits.item).step (MovesMeet KeepsDigits) ⟨{}, []⟩ Digits.again := by
    decide +kernel
  refine ⟨s, began, .ok (), ran, ended, ?_⟩
  apply (settlement_write_once Digits.item ran).2.2 meets _ _ _ _ _ _ ended data Digits.repeats
  rw [none]
  simp

theorem repeated_settlement_raises : ∃ s began,
    run (system Digits.item).step ⟨{}, []⟩ Digits.rewritten = some s ∧
      s.Ended (.settle 1 Digits.usage none) began (.error (.rejected .usageChanged)) ∧
      began.ledger.data = some Digits.ledger ∧
      Repeats Digits.item Digits.ledger Digits.usage none ∧
      s.world.ledger.writes.drop began.ledger.writes.length = [] := by
  have ends : (run (system Digits.item).step ⟨{}, []⟩ Digits.rewritten).any
      (fun s => Digits.Ends 1 (.error (.rejected .usageChanged)) s) = true := by
    decide +kernel
  obtain ⟨s, ran, holds⟩ := (Option.any_eq_true _ _).mp ends
  obtain ⟨began, ended, data, none⟩ := (of_decide_eq_true holds).began
  exact ⟨s, began, ran, ended, data, Digits.repeats, none⟩

end GenSubnet.Witness.Settlement
