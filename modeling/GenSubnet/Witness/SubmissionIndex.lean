import GenSubnet.Witness.Artifacts

/-!
# No lost result

Each write of the index is made from the contents that it replaces: the identified results, with the
update of one prompt or as they are. So the index is the fold of all writes over its first contents.
-/

namespace GenSubnet.Witness.Artifacts
open Library Library.Effects

variable {α : Type} [DecidableEq α] {promptIds : Dict String String}

/-! ## Identification -/

variable (promptIds) in
def AllOfficial (index : Index α) : Prop := ∀ key ∈ index.keys, Official promptIds key

omit [DecidableEq α] in
theorem AllOfficial.set {index : Index α} (all : AllOfficial promptIds index) {prompt : String}
    (official : Official promptIds prompt) (result : α) :
    AllOfficial promptIds (index.set prompt result) := by
  intro key member
  rcases Dict.mem_keys_set.mp member with rfl | member
  · exact official
  · exact all key member

theorem official_of_get {key id : String} (given : promptIds.get key = some id) :
    Official promptIds id :=
  List.mem_map.mpr ⟨(key, id), Dict.get_eq_some_iff.mp given, rfl⟩

theorem official_of_officialOf {key prompt : String}
    (is : officialOf promptIds key = some prompt) : Official promptIds prompt := by
  unfold officialOf at is
  split at is
  · rename_i official
    exact Option.some.inj is ▸ official
  · exact official_of_get is

theorem identifyFrom_allOfficial {identified index : Index α} {items : List (String × α)}
    (all : AllOfficial promptIds identified)
    (is : identifyFrom promptIds identified items = .ok index) : AllOfficial promptIds index := by
  induction items generalizing identified with
  | nil =>
      obtain rfl := Except.ok.inj is
      exact all
  | cons item rest ih =>
      unfold identifyFrom at is
      split at is
      · cases is
      · rename_i prompt found
        split at is
        · cases is
        · exact ih (all.set (official_of_officialOf found) _) is

theorem identifyFrom_items {identified : Index α} {items : List (String × α)}
    (official : ∀ item ∈ items, Official promptIds item.1)
    (nodup : (identified.items ++ items).map Prod.fst |>.Nodup) :
    ∃ index, identifyFrom promptIds identified items = .ok index ∧
      index.items = identified.items ++ items := by
  induction items generalizing identified with
  | nil => exact ⟨identified, rfl, (List.append_nil _).symm⟩
  | cons item rest ih =>
      obtain ⟨key, result⟩ := item
      have absent : key ∉ identified.keys := by
        rw [List.map_append, List.nodup_append] at nodup
        intro member
        exact nodup.2.2 key member key (by simp) rfl
      have items := Dict.items_set_of_not_mem absent result
      have is : officialOf promptIds key = some key := if_pos (official _ List.mem_cons_self)
      obtain ⟨index, rest_is, same⟩ := @ih (identified.set key result)
        (fun item member => official item (List.mem_cons_of_mem _ member))
        (by rw [items, List.append_assoc]; exact nodup)
      refine ⟨index, ?_, ?_⟩
      · rw [identifyFrom, is]
        simp only [Dict.get_eq_none_iff.mpr absent, Option.any_none, Bool.false_eq_true, if_false]
        exact rest_is
      · rw [same, items, List.append_assoc]
        rfl

theorem identify_allOfficial {results index : Index α}
    (is : identify promptIds results = .ok index) : AllOfficial promptIds index :=
  identifyFrom_allOfficial (fun _ member => absurd member List.not_mem_nil) is

theorem identify_of_allOfficial {results : Index α} (all : AllOfficial promptIds results) :
    identify promptIds results = .ok results := by
  obtain ⟨index, is, items⟩ := @identifyFrom_items _ _ promptIds .empty results.items
    (fun item member => all item.1 (List.mem_map_of_mem member)) results.nodup
  rw [identify, is]
  exact congrArg _ (Dict.ext items)

/-! ## The writes -/

/-- The update of a write. -/
def Tag.apply (index : Index α) : Tag α → Index α
  | .update prompt result => index.set prompt result
  | .migrate => index

/-- The updates of the writes, one after the other. -/
def folded (base : Index α) (writes : List (Put (Index α) (Tag α))) : Index α :=
  writes.foldl (fun index write => write.tag.apply index) base

variable (promptIds) in
/-- A write is made from the contents that it replaces. -/
def Related (write : Put (Index α) (Tag α)) : Prop :=
  ∃ base, identify promptIds (opened write.old) = .ok base ∧ write.new = write.tag.apply base ∧
    ∀ prompt result, write.tag = .update prompt result → Official promptIds prompt

theorem Related.allOfficial {write : Put (Index α) (Tag α)} (related : Related promptIds write) :
    AllOfficial promptIds write.new := by
  obtain ⟨base, is, new, official⟩ := related
  rw [new]
  cases tag : write.tag with
  | update prompt result => exact (identify_allOfficial is).set (official prompt result tag) result
  | migrate => exact identify_allOfficial is

theorem Related.again {write : Put (Index α) (Tag α)} (related : Related promptIds write) :
    Related promptIds { write with old := some write.new } := by
  refine ⟨write.new, identify_of_allOfficial related.allOfficial, ?_, related.choose_spec.2.2⟩
  obtain ⟨base, -, new, -⟩ := related
  change write.new = write.tag.apply write.new
  rw [new]
  cases write.tag with
  | update prompt result => exact (Dict.set_of_get (Dict.get_set_self base prompt result)).symm
  | migrate => rfl

theorem leads_folded {before after : Option (Index α)} {base : Index α}
    {writes : List (Put (Index α) (Tag α))} (leads : Versioned.Leads before writes after)
    (related : ∀ write ∈ writes, Related promptIds write)
    (is : identify promptIds (opened before) = .ok base) :
    identify promptIds (opened after) = .ok (folded base writes) := by
  induction writes generalizing before base with
  | nil => exact leads ▸ is
  | cons write rest ih =>
      obtain ⟨rfl, later⟩ := leads
      have official := (related write List.mem_cons_self).allOfficial
      obtain ⟨base', is', new, -⟩ := related write List.mem_cons_self
      obtain rfl := Except.ok.inj (is.symm.trans is')
      have next := ih later (fun other member => related other (List.mem_cons_of_mem _ member))
        (identify_of_allOfficial official)
      rw [new] at next
      exact next

theorem leads_some {before after : Option (Index α)} {writes : List (Put (Index α) (Tag α))}
    (leads : Versioned.Leads before writes after)
    (related : ∀ write ∈ writes, Related promptIds write) (some_ : writes ≠ []) :
    ∃ base, identify promptIds (opened before) = .ok base ∧
      after = some (folded base writes) ∧ AllOfficial promptIds (folded base writes) := by
  obtain ⟨write, rest, rfl⟩ := List.exists_cons_of_ne_nil some_
  obtain ⟨base, is, -⟩ := related write List.mem_cons_self
  rw [← leads.1] at is
  have folds := leads_folded leads related is
  refine ⟨base, is, ?_, identify_allOfficial folds⟩
  obtain ⟨first, last, eq⟩ : ∃ first last, write :: rest = first ++ [last] :=
    ⟨_, _, (List.dropLast_append_getLast some_).symm⟩
  rw [eq] at leads related
  have same := (Versioned.leads_concat.mp leads).2
  have official := (related last (by simp)).allOfficial
  rw [same] at folds
  rw [same, Except.ok.inj ((identify_of_allOfficial official).symm.trans folds)]

omit [DecidableEq α] in
theorem folded_get (base : Index α) {before after : List (Put (Index α) (Tag α))}
    {write : Put (Index α) (Tag α)} {prompt : String} {result : α}
    (tag : write.tag = .update prompt result)
    (last : ∀ later ∈ after, ∀ other, later.tag ≠ .update prompt other) :
    (folded base (before ++ write :: after)).get prompt = some result := by
  induction after using List.reverseRecOn with
  | nil =>
      simp only [folded, List.foldl_append, List.foldl_cons, List.foldl_nil, tag, Tag.apply]
      exact Dict.get_set_self _ _ _
  | append_singleton after later ih =>
      have so := ih fun other member => last other (by simp [member])
      have step : folded base (before ++ write :: (after ++ [later])) =
          later.tag.apply (folded base (before ++ write :: after)) := by
        simp [folded]
      rw [step]
      cases tag' : later.tag with
      | migrate => exact so
      | update prompt' result' =>
          have other : prompt ≠ prompt' := by
            rintro rfl
            exact last later (by simp) result' tag'
          exact (Dict.get_set_of_ne _ _ other).trans so

/-! ## The rules -/

variable (promptIds) in
def Invariant (initial : Option (Index α)) (w : World α) : Prop :=
  w.index.Sound initial (Related promptIds)

variable (promptIds) in
def Moves (initial : Option (Index α)) (w w' : World α) : Prop :=
  Invariant promptIds initial w' ∧ w.index.writes <+: w'.index.writes

variable (promptIds) in
def rules (initial : Option (Index α)) : Rules (World α) (Request α) Request.Reply Error where
  invariant := Invariant promptIds initial
  others := Moves promptIds initial
  answers w q reply w' := ∃ c, w.answer q c = some (reply, w')
  guarantee := Moves promptIds initial

/-- The writes so far stay. -/
def Onward (w w' : World α) : Prop := w.index.writes <+: w'.index.writes

variable {initial : Option (Index α)} {w w' began : World α}

omit [DecidableEq α] in
theorem Onward.refl (w : World α) : Onward w w := List.prefix_rfl

omit [DecidableEq α] in
theorem Onward.trans {u v w : World α} (first : Onward u v) (second : Onward v w) : Onward u w :=
  List.IsPrefix.trans first second

theorem steady : (rules promptIds initial).Steady Onward where
  refl := Onward.refl
  trans _ _ _ first second := first.trans second
  moves _ _ _ move := move.2

theorem own (v v' : World α) (_ : (rules promptIds initial).invariant v)
    (guaranteed : (rules promptIds initial).guarantee v v') : Onward v v' :=
  guaranteed.2

/-- A write since the call began has the tag. -/
def Made (began w : World α) (tag : Tag α) : Prop :=
  ∃ write ∈ w.index.writes.drop began.index.writes.length, write.tag = tag

omit [DecidableEq α] in
theorem Made.later {tag : Tag α} (made : Made began w tag) (later : Onward w w') :
    Made began w' tag := by
  obtain ⟨write, member, is⟩ := made
  obtain ⟨rest, more⟩ := later
  refine ⟨write, ?_, is⟩
  rw [← more, List.drop_append]
  exact List.mem_append_left _ member

omit [DecidableEq α] in
theorem made_last {writes : List (Put (Index α) (Tag α))} (write : Put (Index α) (Tag α))
    (since : began.index.writes <+: writes) (is : w.index.writes = writes ++ [write]) :
    Made began w write.tag := by
  refine ⟨write, ?_, rfl⟩
  rw [is, List.drop_append_of_le_length since.length_le]
  exact List.mem_append_right _ (List.mem_singleton_self _)

/-- The contents that the index had after some writes, all those before the call among them. -/
def Seen (initial : Option (Index α)) (began w : World α) (snapshot : Option (Index α)) : Prop :=
  ∃ n, began.index.writes.length ≤ n ∧ n ≤ w.index.writes.length ∧
    Versioned.Leads initial (w.index.writes.take n) snapshot

omit [DecidableEq α] in
theorem Seen.later {snapshot : Option (Index α)} (seen : Seen initial began w snapshot)
    (later : Onward w w') : Seen initial began w' snapshot := by
  obtain ⟨n, since, before, leads⟩ := seen
  obtain ⟨rest, more⟩ := later
  refine ⟨n, since, ?_, ?_⟩
  · rw [← more, List.length_append]
    exact Nat.le_add_right_of_le before
  · rw [← more, List.take_append_of_le_length before]
    exact leads

theorem seen_data (now : Invariant promptIds initial w) (since : Onward began w) :
    Seen initial began w w.index.data := by
  refine ⟨w.index.writes.length, since.length_le, le_rfl, ?_⟩
  rw [List.take_length]
  exact now.leads

/-! ## The requests -/

theorem ensures_load (since : Onward began w) :
    (rules promptIds initial).Ensures
      (fun outcome v => ∀ snapshot, outcome = .ok snapshot → Seen initial began v snapshot)
      (ask .load) w := by
  apply Rules.Ensures.request
  rintro v later kept reply v' ⟨c, answered⟩
  cases c with
  | done =>
      cases answered
      refine ⟨⟨kept, List.prefix_rfl⟩, fun v'' after _ => ?_⟩
      rintro snapshot ⟨⟩
      exact (seen_data kept (since.trans (steady.later later))).later (steady.later after)
  | fail =>
      cases answered
      exact ⟨⟨kept, List.prefix_rfl⟩, fun _ _ _ => nofun⟩
  | fate fate | found => cases answered

theorem ensures_saved (repository : Nat) :
    (rules promptIds initial).Ensures (fun _ _ => True) (ask (.saved repository)) w := by
  apply Rules.Ensures.request
  rintro v later kept reply v' ⟨c, answered⟩
  cases c with
  | done =>
      cases answered
      exact ⟨⟨kept, List.prefix_rfl⟩, fun _ _ _ => trivial⟩
  | fail | fate fate | found => cases answered

theorem ensures_remember (repository : Nat) (index : Index α) :
    (rules promptIds initial).Ensures (fun outcome _ => ∀ e, outcome ≠ .error e)
      (ask (.remember repository index)) w := by
  apply Rules.Ensures.request
  rintro v later kept reply v' ⟨c, answered⟩
  cases c with
  | done =>
      cases answered
      exact ⟨⟨kept, List.prefix_rfl⟩, fun _ _ _ => nofun⟩
  | fail | fate fate | found => cases answered

theorem ensures_save (since : Onward began w) {write : Put (Index α) (Tag α)}
    (related : Related promptIds write) :
    (rules promptIds initial).Ensures
      (fun outcome v => outcome = .ok () → Made began v write.tag) (ask (.save write)) w := by
  apply Rules.Ensures.request
  rintro v later kept reply v' ⟨c, answered⟩
  have before := since.trans (steady.later later)
  cases c with
  | fate fate =>
      obtain ⟨index, saved, is⟩ := Option.map_eq_some_iff.mp answered
      cases is
      refine ⟨⟨kept.save related saved, (Versioned.save_writes saved).1⟩, fun v'' after _ ok => ?_⟩
      cases fate with
      | saved =>
          rw [Versioned.save] at saved
          split at saved
          · obtain rfl := Option.some.inj saved
            exact (made_last write before rfl).later (steady.later after)
          · cases saved
      | conflict | rejected | uncertain => cases ok
  | found =>
      obtain ⟨index, read, is⟩ := Option.map_eq_some_iff.mp answered
      cases is
      have sound := kept.readBack related related.again read
      obtain ⟨-, rfl⟩ := Versioned.readBack_writes read
      refine ⟨⟨sound, List.prefix_append _ _⟩, fun v'' after _ _ => ?_⟩
      exact (made_last { write with old := v.index.data } before rfl).later (steady.later after)
  | done | fail => cases answered

/-! ## The calls -/

variable (promptIds initial) in
/-- What a call ensures when it returns. -/
def Promise : Operation α → World α → Except Error (Option (Index α)) → World α → Prop
  | .update _ prompt result, began, outcome, w => ∀ returned, outcome = .ok returned →
      ∃ id, promptIds.get prompt = some id ∧ Made began w (.update id result)
  | .results _, began, outcome, w => ∀ returned, outcome = .ok returned →
      ∃ snapshot index, returned = some index ∧ Seen initial began w snapshot ∧
        identify promptIds (opened snapshot) = .ok index

theorem ensures_updateLoop (repository : Nat) {id : String} (official : Official promptIds id)
    (result : α) (n : Nat) : ∀ (snapshot : Option (Index α)) (w : World α), Onward began w →
      (rules promptIds initial).Ensures
        (fun outcome v => ∀ returned, outcome = .ok returned → Made began v (.update id result))
        (updateLoop promptIds repository id result n snapshot) w := by
  induction n with
  | zero => exact fun _ _ _ => Rules.Ensures.throw fun _ _ _ => nofun
  | succ n ih =>
      intro snapshot w since
      unfold updateLoop
      split
      · exact Rules.Ensures.throw fun _ _ _ => nofun
      · rename_i base is
        have related : Related promptIds ⟨.update id result, snapshot, base.set id result⟩ := by
          refine ⟨base, is, rfl, ?_⟩
          rintro _ _ ⟨⟩
          exact official
        apply Rules.Ensures.bindFrom steady own (Rules.Ensures.outcome (ensures_save since related))
        · rintro reply v _ onward ⟨_, ⟨⟩, made⟩
          cases reply with
          | ok u =>
              apply Rules.Ensures.bindFrom steady own (ensures_remember repository _)
              · intro u v' _ later _
                apply Rules.Ensures.pure
                intro v'' after _ _ _
                exact (made rfl).later (later.trans (steady.later after))
              · exact fun _ _ _ _ _ => nofun
          | error e =>
              cases e with
              | conflict =>
                  apply Rules.Ensures.bindFrom steady own (ensures_load (since.trans onward))
                  · exact fun snapshot v' _ later _ =>
                      ih snapshot v' ((since.trans onward).trans later)
                  · exact fun _ _ _ _ _ => nofun
              | _ => exact Rules.Ensures.throw fun _ _ _ => nofun
        · exact fun _ _ _ _ _ => nofun

theorem ensures_start (repository : Nat) :
    (rules promptIds initial).Ensures (fun _ _ => True) (start repository) w := by
  apply Rules.Ensures.bindFrom steady own (ensures_saved repository)
  · intro cached v _ _ _
    cases cached with
    | some index => exact Rules.Ensures.pure fun _ _ _ => trivial
    | none => exact (ensures_load (Onward.refl v)).mono fun _ _ _ _ => trivial
  · exact fun _ _ _ _ _ => trivial

theorem ensures_resultsLoop (repository : Nat) (n : Nat) :
    ∀ (snapshot : Option (Index α)) (w : World α), Onward began w →
      Seen initial began w snapshot →
      (rules promptIds initial).Ensures
        (fun outcome v => ∀ returned, outcome = .ok returned →
          ∃ snapshot index, returned = some index ∧ Seen initial began v snapshot ∧
            identify promptIds (opened snapshot) = .ok index)
        (resultsLoop promptIds repository n snapshot) w := by
  induction n with
  | zero => exact fun _ _ _ _ => Rules.Ensures.throw fun _ _ _ => nofun
  | succ n ih =>
      intro snapshot w since seen
      unfold resultsLoop
      split
      · exact Rules.Ensures.throw fun _ _ _ => nofun
      · rename_i index is
        split
        · apply Rules.Ensures.pure
          rintro v later _ _ ⟨⟩
          exact ⟨snapshot, index, rfl, seen.later (steady.later later), is⟩
        · have related : Related promptIds ⟨.migrate, snapshot, index⟩ :=
            ⟨index, is, rfl, fun _ _ => nofun⟩
          apply Rules.Ensures.bindFrom steady own
            (Rules.Ensures.outcome (ensures_save since related))
          · rintro reply v _ onward ⟨_, ⟨⟩, -⟩
            cases reply with
            | ok u =>
                apply Rules.Ensures.bindFrom steady own (ensures_remember repository _)
                · rintro u v' _ later _
                  apply Rules.Ensures.pure
                  rintro v'' after _ _ ⟨⟩
                  have now := onward.trans (later.trans (steady.later after))
                  exact ⟨snapshot, index, rfl, seen.later now, is⟩
                · exact fun _ _ _ _ _ => nofun
            | error e =>
                cases e with
                | conflict =>
                    apply Rules.Ensures.bindFrom steady own (ensures_load (since.trans onward))
                    · intro snapshot v' _ later loaded
                      exact ih snapshot v' ((since.trans onward).trans later) (loaded _ rfl)
                    · exact fun _ _ _ _ _ => nofun
                | _ => exact Rules.Ensures.throw fun _ _ _ => nofun
          · exact fun _ _ _ _ _ => nofun

theorem ensures_results (repository : Nat) :
    (rules promptIds initial).Ensures (Promise promptIds initial (.results repository) began)
      (results promptIds repository) began := by
  apply Rules.Ensures.bindFrom steady own (ensures_load (Onward.refl began))
  · exact fun snapshot v _ since seen =>
      ensures_resultsLoop repository 16 snapshot v since (seen _ rfl)
  · exact fun _ _ _ _ _ => nofun

theorem ensures_update (repository : Nat) (prompt : String) (result : α) :
    (rules promptIds initial).Ensures
      (Promise promptIds initial (.update repository prompt result) began)
      (updateResult promptIds repository prompt result) began := by
  unfold updateResult
  split
  · exact Rules.Ensures.throw fun _ _ _ => nofun
  · rename_i id given
    apply Rules.Ensures.bindFrom steady own (ensures_start repository)
    · intro snapshot v _ since _
      apply (ensures_updateLoop repository (official_of_get given) result 16 snapshot v since).mono
      exact fun outcome v' _ made returned is => ⟨id, given, made returned is⟩
    · exact fun _ _ _ _ _ => nofun

/-! ## Whose writes they are -/

variable (promptIds) in
/-- The tag that a call gives its writes. -/
def Writes : Operation α → Tag α → Prop
  | .results _, tag => tag = .migrate
  | .update _ prompt result, tag => ∃ id, promptIds.get prompt = some id ∧ tag = .update id result

variable (promptIds) in
/-- The requests of a call: its writes are its own. -/
def Allowed (k : Operation α) : Request α → Prop
  | .save write => Writes promptIds k write.tag
  | _ => True

theorem asks_results (repository n : Nat) : ∀ snapshot : Option (Index α),
    (resultsLoop promptIds repository n snapshot).Asks
      (Allowed promptIds (.results repository)) := by
  induction n with
  | zero => exact fun _ => Prog.asks_throw _
  | succ n ih =>
      intro snapshot
      unfold resultsLoop
      split
      · exact Prog.asks_throw _
      · split
        · exact Prog.asks_pure _
        · rename_i index _ _
          have mine : Allowed promptIds (.results repository)
              (.save ⟨.migrate, snapshot, index⟩) := rfl
          apply Prog.Asks.bind (Prog.Asks.outcome (Prog.asks_request mine))
          intro reply
          cases reply with
          | ok u => exact Prog.Asks.bind (Prog.asks_request trivial) fun _ => Prog.asks_pure _
          | error e =>
              cases e with
              | conflict => exact Prog.Asks.bind (Prog.asks_request trivial) ih
              | _ => exact Prog.asks_throw _

theorem asks_update (repository : Nat) {prompt id : String} (given : promptIds.get prompt = some id)
    (result : α) (n : Nat) : ∀ snapshot : Option (Index α),
    (updateLoop promptIds repository id result n snapshot).Asks
      (Allowed promptIds (.update repository prompt result)) := by
  induction n with
  | zero => exact fun _ => Prog.asks_throw _
  | succ n ih =>
      intro snapshot
      unfold updateLoop
      split
      · exact Prog.asks_throw _
      · rename_i base _
        have mine : Allowed promptIds (.update repository prompt result)
            (.save ⟨.update id result, snapshot, base.set id result⟩) := ⟨id, given, rfl⟩
        apply Prog.Asks.bind (Prog.Asks.outcome (Prog.asks_request mine))
        intro reply
        cases reply with
        | ok u => exact Prog.Asks.bind (Prog.asks_request trivial) fun _ => Prog.asks_pure _
        | error e =>
            cases e with
            | conflict => exact Prog.Asks.bind (Prog.asks_request trivial) ih
            | _ => exact Prog.asks_throw _

omit [DecidableEq α] in
theorem asks_start (repository : Nat) (k : Operation α) :
    (start repository : Task α _).Asks (Allowed promptIds k) := by
  apply Prog.Asks.bind (Prog.asks_request trivial)
  intro cached
  cases cached with
  | some index => exact Prog.asks_pure _
  | none => exact Prog.asks_request trivial

theorem asks_program (k : Operation α) : (k.program promptIds).Asks (Allowed promptIds k) := by
  cases k with
  | results repository =>
      exact Prog.Asks.bind (Prog.asks_request trivial) (asks_results repository 16)
  | update repository prompt result =>
      change (updateResult promptIds repository prompt result).Asks _
      unfold updateResult
      split
      · exact Prog.asks_throw _
      · rename_i id given
        exact Prog.Asks.bind (asks_start _ _) (asks_update repository given result 16)

variable (promptIds) in
/-- The writes, also those adrift, are those of calls that were started. -/
structure Owned (s : Repositories α) : Prop where
  asks : s.Asks (Allowed promptIds)
  writes : ∀ write ∈ s.world.index.writes ++ s.world.index.adrift,
    ∃ k ∈ s.calls, Writes promptIds k write.tag

theorem answer_writes {q : Request α} {c : Choice} {reply : Except Error q.Reply} {k : Operation α}
    (allowed : Allowed promptIds k q) (answered : w.answer q c = some (reply, w')) :
    ∀ write ∈ w'.index.writes ++ w'.index.adrift,
      write ∈ w.index.writes ++ w.index.adrift ∨ Writes promptIds k write.tag := by
  cases q with
  | load =>
      cases c with
      | done | fail =>
          cases answered
          exact fun _ member => Or.inl member
      | fate fate | found => cases answered
  | saved repository =>
      cases c with
      | done =>
          cases answered
          exact fun _ member => Or.inl member
      | fail | fate fate | found => cases answered
  | remember repository index =>
      cases c with
      | done =>
          cases answered
          exact fun _ member => Or.inl member
      | fail | fate fate | found => cases answered
  | save write =>
      cases c with
      | fate fate =>
          obtain ⟨index, saved, is⟩ := Option.map_eq_some_iff.mp answered
          cases is
          intro other member
          rcases (Versioned.save_writes saved).2 other member with rfl | member
          · exact Or.inr allowed
          · exact Or.inl member
      | found =>
          obtain ⟨index, read, is⟩ := Option.map_eq_some_iff.mp answered
          cases is
          obtain ⟨-, rfl⟩ := Versioned.readBack_writes read
          intro other member
          simp only [Versioned.commit, List.mem_append, List.mem_singleton] at member ⊢
          rcases member with (member | rfl) | (member | rfl)
          · exact Or.inl (Or.inl member)
          · exact Or.inr allowed
          · exact Or.inl (Or.inr member)
          · exact Or.inr allowed
      | done | fail => cases answered

theorem Owned.step (s : Repositories α) (event : CrowdEvent Move Choice (Operation α))
    (t : Repositories α) (owned : Owned promptIds s)
    (stepped : (repositories promptIds).step s event = some t) : Owned promptIds t := by
  have step := Shared.stepped stepped
  have calls := step.calls
  refine ⟨step.asks asks_program owned.asks, ?_⟩
  have started : ∀ write ∈ s.world.index.writes ++ s.world.index.adrift,
      ∃ k ∈ t.calls, Writes promptIds k write.tag := by
    intro write member
    obtain ⟨k, called, writes⟩ := owned.writes write member
    exact ⟨k, calls.subset called, writes⟩
  cases step with
  | move moved =>
      obtain ⟨index, settled, rfl⟩ := Option.map_eq_some_iff.mp moved
      exact fun write member => started write ((Versioned.settle_writes settled).2 write member)
  | start k => exact started
  | answer running answered =>
      have member := List.mem_of_getElem? running
      intro write written
      rcases answer_writes (owned.asks _ member).1 answered write written with old | writes
      · exact started write old
      · exact ⟨_, calls.subset (List.mem_map_of_mem member), writes⟩

/-! ## The system -/

theorem follows (promptIds : Dict String String) (initial : Option (Index α)) :
    (repositories promptIds).Follows (rules promptIds initial) (Promise promptIds initial)
      fun _ _ => True where
  move w m w' invariant _ moved := by
    obtain ⟨index, settled, rfl⟩ := Option.map_eq_some_iff.mp moved
    exact ⟨invariant.settle settled, (Versioned.settle_writes settled).1⟩
  answer _ _ c _ _ _ answered := ⟨c, answered⟩
  body k w _ := by
    cases k with
    | results repository => exact ensures_results repository
    | update repository prompt result => exact ensures_update repository prompt result
  others _ _ _ move := move.1
  guarantee _ _ _ move := move

variable {saved : Dict Nat (Index α)} {s : Repositories α}
  {events : List (CrowdEvent Move Choice (Operation α))}

theorem safe_run (ran : run (repositories promptIds).step ⟨⟨{ data := initial }, saved⟩, []⟩ events =
    some s) : s.Safe (rules promptIds initial) (Promise promptIds initial) := by
  apply (follows promptIds initial).run_all ran
  exact ⟨Versioned.sound_initial initial _, by simp⟩

theorem owned_run (ran : run (repositories promptIds).step ⟨⟨{ data := initial }, saved⟩, []⟩ events =
    some s) : Owned promptIds s := by
  apply run_invariant ran Owned.step
  exact ⟨by simp [Crowd.Asks], by simp⟩

/-- The index is what it was until the first write, and then the fold of all updates that have been
written over its identified first contents. An update that returns has been written since it began,
what is written is the update of a call, and `results` returns the fold of a part of the writes that
has all those before the call. -/
theorem submission_index_folds (promptIds : Dict String String) (initial : Option (Index α))
    (saved : Dict Nat (Index α)) (events : List (CrowdEvent Move Choice (Operation α)))
    (s : Repositories α)
    (ran : run (repositories promptIds).step ⟨⟨{ data := initial }, saved⟩, []⟩ events = some s) :
    (s.world.index.writes = [] → s.world.index.data = initial) ∧
    (s.world.index.writes ≠ [] → ∃ base, identify promptIds (opened initial) = .ok base ∧
      s.world.index.data = some (folded base s.world.index.writes) ∧
      ∀ key ∈ (folded base s.world.index.writes).keys, Official promptIds key) ∧
    (∀ repository prompt result began returned,
      s.Ended (.update repository prompt result) began (.ok returned) →
      ∃ id, promptIds.get prompt = some id ∧
        ∃ write ∈ s.world.index.writes.drop began.index.writes.length,
          write.tag = .update id result) ∧
    (∀ write ∈ s.world.index.writes, ∀ id result, write.tag = .update id result →
      ∃ repository prompt, .update repository prompt result ∈ s.calls ∧
        promptIds.get prompt = some id) ∧
    (∀ before write after id result, s.world.index.writes = before ++ write :: after →
      write.tag = .update id result → (∀ later ∈ after, ∀ other, later.tag ≠ .update id other) →
      ∃ index, s.world.index.data = some index ∧ index.get id = some result) ∧
    (∀ repository began returned, s.Ended (.results repository) began (.ok returned) →
      ∃ n base, began.index.writes.length ≤ n ∧ n ≤ s.world.index.writes.length ∧
        identify promptIds (opened initial) = .ok base ∧
        returned = some (folded base (s.world.index.writes.take n))) := by
  have safe := safe_run ran
  have sound : s.world.index.Sound initial (Related promptIds) := safe.invariant
  refine ⟨?_, ?_, ?_, ?_, ?_, ?_⟩
  · intro none
    have leads := sound.leads
    rw [none] at leads
    exact Eq.symm leads
  · exact leads_some sound.leads sound.writes
  · intro repository prompt result began returned ended
    exact safe.ended ended returned rfl
  · intro write member id result tag
    obtain ⟨k, called, writes⟩ := (owned_run ran).writes write (List.mem_append_left _ member)
    cases k with
    | results repository =>
        rw [tag] at writes
        cases writes
    | update repository prompt result' =>
        obtain ⟨id', given, is⟩ := writes
        rw [tag] at is
        cases is
        exact ⟨repository, prompt, called, given⟩
  · intro before write after id result split tag last
    obtain ⟨base, -, data, -⟩ := leads_some sound.leads sound.writes (by simp [split])
    refine ⟨_, data, ?_⟩
    rw [split]
    exact folded_get base tag last
  · intro repository began returned ended
    have promise : Promise promptIds initial (.results repository) began (.ok returned) s.world :=
      safe.ended ended
    obtain ⟨snapshot, index, rfl, ⟨n, since, upTo, leads⟩, is⟩ := promise returned rfl
    have related : ∀ write ∈ s.world.index.writes.take n, Related promptIds write :=
      fun write member => sound.writes write (List.mem_of_mem_take member)
    obtain ⟨base, identified, same⟩ : ∃ base, identify promptIds (opened initial) = .ok base ∧
        index = folded base (s.world.index.writes.take n) := by
      cases writes : s.world.index.writes.take n with
      | nil =>
          rw [writes] at leads
          obtain rfl : initial = snapshot := leads
          exact ⟨index, is, rfl⟩
      | cons write rest =>
          obtain ⟨base, identified, -, -⟩ := leads_some leads related (by simp [writes])
          have folds := leads_folded leads related identified
          rw [← writes]
          exact ⟨base, identified, Except.ok.inj (is.symm.trans folds)⟩
    exact ⟨n, base, since, upTo, identified, congrArg _ same⟩

/-! ## A legacy index -/

namespace Legacy

def ids : Dict String String := (Dict.empty.set "a1" "chair").set "b2" "table"

/-- The result of the first prompt, under its hash. -/
def index : Index Nat := Dict.empty.set "a1" 1

/-- The second repository has a snapshot from before. -/
def snapshots : Dict Nat (Index Nat) := Dict.empty.set 1 Dict.empty

/-- Both update a prompt; the second one reloads, and its answer is lost and read back. -/
def updates : List (CrowdEvent Move Choice (Operation Nat)) :=
  [.start (.update 0 "b2" 2), .start (.update 1 "a1" 5), .answer 0 .done, .answer 1 .done,
    .answer 0 .done, .answer 0 (.fate .saved), .answer 1 (.fate .conflict), .answer 1 .done,
    .answer 1 (.fate .uncertain), .move ⟨0, true⟩, .answer 0 .done]

/-- The store rejects the migration. -/
def rejected : List (CrowdEvent Move Choice (Operation Nat)) :=
  [.start (.results 0), .answer 0 .done, .answer 0 (.fate .rejected)]

end Legacy

theorem submission_index_folds_legacy : ∃ s,
    run (repositories Legacy.ids).step ⟨⟨{ data := some Legacy.index }, Legacy.snapshots⟩, []⟩
      Legacy.updates = some s ∧
    ∃ base, identify Legacy.ids Legacy.index = .ok base ∧
      s.world.index.data = some (folded base s.world.index.writes) ∧
      ∀ key ∈ (folded base s.world.index.writes).keys, Official Legacy.ids key := by
  have written : (run (repositories Legacy.ids).step
      ⟨⟨{ data := some Legacy.index }, Legacy.snapshots⟩, []⟩ Legacy.updates).any
        (fun s => s.world.index.writes.length = 2) = true := by
    decide +kernel
  obtain ⟨s, ran, length⟩ := (Option.any_eq_true _ _).mp written
  refine ⟨s, ran, ?_⟩
  apply (submission_index_folds Legacy.ids (some Legacy.index) Legacy.snapshots Legacy.updates s
    ran).2.1
  intro none
  rw [none] at length
  cases length

/-- The index keeps a key that is no official id until a write is made. -/
theorem legacy_key_stays : ∃ s began,
    run (repositories Legacy.ids).step ⟨⟨{ data := some Legacy.index }, Legacy.snapshots⟩, []⟩
      Legacy.rejected = some s ∧
    s.Ended (.results 0) began (.error .failed) ∧
    s.world.index.data = some Legacy.index ∧
    "a1" ∈ Legacy.index.keys ∧ ¬Official Legacy.ids "a1" ∧
    identify Legacy.ids Legacy.index = .ok (Dict.empty.set "chair" 1) := by
  have ends : (run (repositories Legacy.ids).step
      ⟨⟨{ data := some Legacy.index }, Legacy.snapshots⟩, []⟩ Legacy.rejected).any
        (fun s => s.outcome 0 = some (.results 0, .error .failed) ∧
          s.world.index.data = some Legacy.index) = true := by
    decide +kernel
  obtain ⟨s, ran, holds⟩ := (Option.any_eq_true _ _).mp ends
  obtain ⟨failed, data⟩ := of_decide_eq_true holds
  obtain ⟨began, -, ended⟩ := Crowd.ended_of_outcome failed
  refine ⟨s, began, ran, ended, data, by decide, by decide, by decide⟩

end GenSubnet.Witness.Artifacts
