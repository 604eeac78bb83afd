import GenSubnet.Auth.Authenticator

/-!
# Replayed requests

A nonce leaves the table only when a critical section purges it with a clock reading past its
validity window. A call carries the reading it took at its start, so a call that is still inside the
window of its own reading can reach its last critical section after another call has purged its
nonce: then the same nonce is accepted again. Where no purge past the window lies between an
acceptance and a later call's last critical section, it is not.
-/

namespace GenSubnet.Auth
open Library

variable {Key : Type}

def Call.acceptedAs (pair : String × String) : Call Key → Bool
  | .accepted call _ => (call.hotkey, call.nonce) = pair
  | _ => false

/-- How many calls have been accepted with this hotkey and nonce. -/
def State.acceptances (s : State Key) (pair : String × String) : Nat :=
  s.calls.countP (Call.acceptedAs pair)

/-- The last moment at which a nonce is valid. -/
def windowEnd (nonce : String) : Nat := nonceValue nonce + 30000000000

/-- No critical section that ran after the acceptance of this call carried a clock reading past the
window of its nonce. -/
def Call.Unexpired (purges : List Nat) : Call Key → Prop
  | .accepted call after => ∀ reading ∈ purges.drop after, reading ≤ windowEnd call.nonce
  | _ => True

/-- When a call enters its last critical section, no section with a clock reading past the window of
its nonce has run since a call with the same hotkey and nonce was accepted. -/
def BeforeLatePurge (s : State Key) : Event → Prop
  | .conclude i _ =>
      match s.calls[i]? with
      | some (.checked call _) => ∀ other ∈ s.calls,
          other.acceptedAs (call.hotkey, call.nonce) = true → other.Unexpired s.purges
      | _ => True
  | _ => True

instance (purges : List Nat) : ∀ call : Call Key, Decidable (call.Unexpired purges)
  | .accepted call after =>
      inferInstanceAs (Decidable (∀ reading ∈ purges.drop after, reading ≤ windowEnd call.nonce))
  | .admitted _ => isTrue trivial
  | .checked _ _ => isTrue trivial
  | .failed _ => isTrue trivial

instance (s : State Key) : ∀ event, Decidable (BeforeLatePurge s event)
  | .arrive .. => isTrue trivial
  | .inspect .. => isTrue trivial
  | .conclude i _ => by
      unfold BeforeLatePurge
      dsimp only
      split <;> infer_instance

/-! ## What a purge removes -/

def HeapDated (tables : Tables Key) : Prop :=
  ∀ entry ∈ tables.expiry, entry.1 = windowEnd entry.2.2 + 1

theorem purge_expiry_subset (now : Nat) (tables : Tables Key) (heap : List Expiry) :
    ∀ entry ∈ (purge now tables heap).1.expiry, entry ∈ heap := by
  induction heap generalizing tables with
  | nil => simp [purge]
  | cons entry rest ih =>
      intro other member
      unfold purge at member
      split at member
      · cases counted : decrement tables.counts entry.2.1 with
        | none =>
            simp only [counted] at member
            exact List.mem_cons_of_mem _ member
        | some counts =>
            simp only [counted] at member
            exact List.mem_cons_of_mem _ (ih _ other member)
      · exact member

theorem purge_keeps (now : Nat) (tables : Tables Key) (heap : List Expiry)
    (dated : ∀ entry ∈ heap, entry.1 = windowEnd entry.2.2 + 1)
    (pair : String × String) (current : now ≤ windowEnd pair.2)
    (present : tables.nonces.contains pair = true) :
    (purge now tables heap).1.nonces.contains pair = true := by
  induction heap generalizing tables with
  | nil => exact present
  | cons entry rest ih =>
      unfold purge
      split
      · rename_i expired
        have other : pair ≠ entry.2 := by
          rintro rfl
          have := dated entry List.mem_cons_self
          omega
        have kept : (tables.nonces.erase entry.2).contains pair = true := by
          rw [Dict.contains, Dict.get_erase, if_neg other]
          exact present
        cases counted : decrement tables.counts entry.2.1 with
        | none => exact kept
        | some counts =>
            exact ih _ (fun e h => dated e (List.mem_cons_of_mem _ h)) kept
      · exact present

theorem checkNonce_tables (tables : Tables Key) (hotkey nonce : String) (now : Nat) :
    (checkNonce tables hotkey nonce now).1 = (purge now tables tables.expiry).1 := by
  unfold checkNonce
  dsimp only
  split
  · rfl
  split
  · rfl
  split <;> rfl

theorem checkNonce_fresh {tables : Tables Key} {hotkey nonce : String} {now : Nat}
    (passed : (checkNonce tables hotkey nonce now).2 = .ok ()) :
    (purge now tables tables.expiry).1.nonces.contains (hotkey, nonce) = false := by
  unfold checkNonce at passed
  dsimp only at passed
  split at passed
  · cases passed
  split at passed
  · cases passed
  · rename_i absent
    simpa using absent

theorem insertNonce_contains (tables : Tables Key) (hotkey nonce : String) (key : Key)
    (pair : String × String) :
    (insertNonce tables hotkey nonce key).nonces.contains pair =
      (decide (pair = (hotkey, nonce)) || tables.nonces.contains pair) := by
  simp [insertNonce, Dict.contains_set]

theorem insertNonce_dated {tables : Tables Key} (dated : HeapDated tables)
    (hotkey nonce : String) (key : Key) : HeapDated (insertNonce tables hotkey nonce key) := by
  intro entry member
  simp only [insertNonce, List.mem_orderedInsert] at member
  rcases member with rfl | member
  · have window : windowEnd nonce = nonceValue nonce + 30000000000 := rfl
    have expiry : nonceValue nonce + 30000000001 = windowEnd nonce + 1 := by omega
    exact expiry
  · exact dated entry member

/-! ## The invariant -/

/-- A call that has read the clock did so inside the window of its nonce, and an accepted call was
accepted after some of the purges so far. -/
def Call.Timely (purges : Nat) : Call Key → Prop
  | .admitted call => call.now ≤ windowEnd call.nonce
  | .checked call _ => call.now ≤ windowEnd call.nonce
  | .accepted _ after => after ≤ purges
  | .failed _ => True

theorem Call.Timely.mono {call : Call Key} {m n : Nat} (timely : call.Timely m) (le : m ≤ n) :
    call.Timely n := by
  cases call with
  | admitted call => exact timely
  | checked call key => exact timely
  | accepted call after => exact Nat.le_trans timely le
  | failed failure => trivial

/-- The calls of a state whose table still holds what they rely on. -/
structure Retained (s : State Key) : Prop where
  timely : ∀ call ∈ s.calls, call.Timely s.purges.length
  dated : HeapDated s.tables
  /-- An accepted nonce is in the table until a section purges past its window. -/
  held : ∀ call ∈ s.calls, ∀ pair, call.acceptedAs pair = true → call.Unexpired s.purges →
    s.tables.nonces.contains pair = true

structure Unreplayed (s : State Key) : Prop extends Retained s where
  once : ∀ pair, s.acceptances pair ≤ 1

theorem retained_initial : Retained ({} : State Key) where
  timely := by simp
  dated := by simp [HeapDated]
  held := by simp

theorem unreplayed_initial : Unreplayed ({} : State Key) :=
  { retained_initial with once := by simp [State.acceptances] }

theorem admission_timely (wallet : Wallet Key) (request : Request) (now purges : Nat) :
    (admission wallet request now).Timely purges := by
  unfold admission
  dsimp only
  split
  · trivial
  split
  · trivial
  · rename_i fresh
    simp only [Call.Timely, windowEnd]
    omega

theorem admission_not_accepted (wallet : Wallet Key) (request : Request) (now : Nat)
    (pair : String × String) : (admission wallet request now).acceptedAs pair = false := by
  unfold admission
  dsimp only
  split
  · rfl
  split <;> rfl

theorem countP_set_call {calls : List (Call Key)} {i : Nat} {old : Call Key}
    (at_i : calls[i]? = some old) (pair : String × String) (pending : old.acceptedAs pair = false)
    (new : Call Key) :
    (calls.set i new).countP (Call.acceptedAs pair) =
      calls.countP (Call.acceptedAs pair) + (new.acceptedAs pair).toNat := by
  obtain ⟨bound, rfl⟩ := List.getElem?_eq_some_iff.mp at_i
  rw [List.countP_set bound]
  cases h : new.acceptedAs pair <;> simp [pending]

theorem timely_set {calls : List (Call Key)} {m n : Nat} (le : m ≤ n)
    (timely : ∀ call ∈ calls, call.Timely m) (i : Nat) {new : Call Key} (h : new.Timely n) :
    ∀ call ∈ calls.set i new, call.Timely n := by
  intro call member
  rcases List.mem_or_eq_of_mem_set member with member | rfl
  · exact (timely call member).mono le
  · exact h

/-- After one more purge, a call that is still unexpired was unexpired before, and its window
covers the reading of the purge. -/
theorem Call.Unexpired.of_concat {call : Call Key} {purges : List Nat} {now : Nat}
    {pair : String × String} (accepted : call.acceptedAs pair = true)
    (timely : call.Timely purges.length) (unexpired : call.Unexpired (purges ++ [now])) :
    call.Unexpired purges ∧ now ≤ windowEnd pair.2 := by
  cases call with
  | accepted call after =>
      have same : (call.hotkey, call.nonce) = pair := by simpa [Call.acceptedAs] using accepted
      subst same
      simp only [Call.Unexpired, List.drop_append_of_le_length timely] at unexpired ⊢
      exact ⟨fun reading h => unexpired reading (List.mem_append_left _ h),
        unexpired now (List.mem_append_right _ List.mem_cons_self)⟩
  | admitted call => cases accepted
  | checked call key => cases accepted
  | failed failure => cases accepted

/-! ## What a step does -/

/-- The end of a call's first critical section. -/
def State.inspected (s : State Key) (i : Nat) (call : Pending) : State Key :=
  s.section i call fun tables => (tables, .checked call (tables.keys.get call.hotkey))

/-- The end of its second critical section. -/
def State.concluded (s : State Key) (i : Nat) (call : Pending) (key : Key) : State Key :=
  s.section i call fun tables =>
    (insertNonce tables call.hotkey call.nonce key, .accepted call (s.purges.length + 1))

theorem step_cases {wallet : Wallet Key} {s s' : State Key} {event : Event}
    (stepped : step wallet s event = some s') :
    (∃ request now, event = .arrive request now ∧
      s' = { s with clock := now, calls := s.calls ++ [admission wallet request now] }) ∨
    (∃ i old reason, s.calls[i]? = some old ∧ (∀ pair, old.acceptedAs pair = false) ∧
      s' = { s with calls := s.calls.set i (.failed (.rejected reason)) }) ∨
    (∃ i call, event = .inspect i (.ok ()) ∧ s.calls[i]? = some (.admitted call) ∧
      s' = s.inspected i call) ∨
    (∃ i call known key, event = .conclude i (.ok ()) ∧ s.calls[i]? = some (.checked call known) ∧
      s' = s.concluded i call key) := by
  cases event with
  | arrive request now =>
      simp only [step] at stepped
      split at stepped
      · exact Or.inl ⟨request, now, rfl, (Option.some.inj stepped).symm⟩
      · cases stepped
  | inspect i authorize =>
      simp only [step] at stepped
      split at stepped
      · rename_i call at_i
        cases authorize with
        | error reason =>
            exact Or.inr (Or.inl ⟨i, _, reason, at_i, fun _ => rfl, (Option.some.inj stepped).symm⟩)
        | ok _ => exact Or.inr (Or.inr (Or.inl ⟨i, call, rfl, at_i, (Option.some.inj stepped).symm⟩))
      · cases stepped
  | conclude i authorize =>
      simp only [step] at stepped
      split at stepped
      · rename_i call known at_i
        have rejected : ∀ reason,
            some { s with calls := s.calls.set i (.failed (.rejected reason)) } = some s' →
            ∃ i old reason, s.calls[i]? = some old ∧ (∀ pair, old.acceptedAs pair = false) ∧
              s' = { s with calls := s.calls.set i (.failed (.rejected reason)) } :=
          fun reason same => ⟨i, _, reason, at_i, fun _ => rfl, (Option.some.inj same).symm⟩
        split at stepped
        · exact Or.inr (Or.inl (rejected _ stepped))
        · rename_i key verified
          cases authorize with
          | error reason => exact Or.inr (Or.inl (rejected _ stepped))
          | ok _ =>
              exact Or.inr (Or.inr (Or.inr
                ⟨i, call, known, key, rfl, at_i, (Option.some.inj stepped).symm⟩))
      · cases stepped

theorem Retained.reject {s : State Key} (inv : Retained s) (i : Nat) (failure : Failure) :
    Retained { s with calls := s.calls.set i (.failed failure) } := by
  refine ⟨timely_set le_rfl inv.timely i trivial, inv.dated, ?_⟩
  intro call member pair accepted
  rcases List.mem_or_eq_of_mem_set member with member | rfl
  · exact inv.held call member pair accepted
  · cases accepted

theorem Retained.arrive {s : State Key} (inv : Retained s) (wallet : Wallet Key)
    (request : Request) (now : Nat) :
    Retained { s with clock := now, calls := s.calls ++ [admission wallet request now] } := by
  refine ⟨?_, inv.dated, ?_⟩
  · intro call member
    rcases List.mem_append.mp member with member | member
    · exact inv.timely call member
    · rw [List.mem_singleton.mp member]
      exact admission_timely wallet request now _
  · intro call member pair accepted
    rcases List.mem_append.mp member with member | member
    · exact inv.held call member pair accepted
    · rw [List.mem_singleton.mp member, admission_not_accepted] at accepted
      cases accepted

theorem Retained.purged {s : State Key} (inv : Retained s) {now : Nat} {other : Call Key}
    (member : other ∈ s.calls) {pair : String × String} (accepted : other.acceptedAs pair = true)
    (unexpired : other.Unexpired (s.purges ++ [now])) :
    (purge now s.tables s.tables.expiry).1.nonces.contains pair = true := by
  obtain ⟨before, window⟩ := Call.Unexpired.of_concat accepted (inv.timely other member) unexpired
  exact purge_keeps _ _ _ inv.dated pair window (inv.held other member pair accepted before)

/-- A critical section purges the table, and what it inserts is the nonce of a call that it
accepts. -/
theorem Retained.section {s : State Key} (inv : Retained s) (i : Nat) (call : Pending)
    (proceed : Tables Key → Tables Key × Call Key)
    (timely : ∀ tables, (proceed tables).2.Timely (s.purges.length + 1))
    (dated : ∀ tables, HeapDated tables → HeapDated (proceed tables).1)
    (kept : ∀ tables pair, tables.nonces.contains pair = true →
      (proceed tables).1.nonces.contains pair = true)
    (inserted : ∀ tables pair, (proceed tables).2.acceptedAs pair = true →
      (proceed tables).1.nonces.contains pair = true) :
    Retained (s.section i call proceed) := by
  have purgedDated : HeapDated (purge call.now s.tables s.tables.expiry).1 := fun entry member =>
    inv.dated entry (purge_expiry_subset _ _ _ entry member)
  unfold State.section
  have tables := checkNonce_tables s.tables call.hotkey call.nonce call.now
  cases checked : checkNonce s.tables call.hotkey call.nonce call.now with
  | mk after outcome =>
      rw [checked] at tables
      dsimp only at tables
      subst tables
      cases outcome with
      | error failure =>
          refine ⟨timely_set (by simp) inv.timely i trivial, purgedDated, ?_⟩
          intro other member pair accepted unexpired
          rcases List.mem_or_eq_of_mem_set member with member | rfl
          · exact inv.purged member accepted unexpired
          · cases accepted
      | ok _ =>
          refine ⟨timely_set (by simp) inv.timely i (by simpa using timely _), dated _ purgedDated,
            ?_⟩
          intro other member pair accepted unexpired
          rcases List.mem_or_eq_of_mem_set member with member | rfl
          · exact kept _ _ (inv.purged member accepted unexpired)
          · exact inserted _ pair accepted

theorem Retained.inspected {s : State Key} (inv : Retained s) {i : Nat} {call : Pending}
    (at_i : s.calls[i]? = some (.admitted call)) : Retained (s.inspected i call) := by
  have now : call.now ≤ windowEnd call.nonce := inv.timely _ (List.mem_of_getElem? at_i)
  apply inv.section
  · exact fun _ => now
  · exact fun _ dated => dated
  · exact fun _ _ kept => kept
  · rintro tables pair accepted
    cases accepted

theorem Retained.concluded {s : State Key} (inv : Retained s) (i : Nat) (call : Pending)
    (key : Key) : Retained (s.concluded i call key) := by
  apply inv.section
  · exact fun _ => le_rfl
  · exact fun _ dated => insertNonce_dated dated _ _ _
  · intro tables pair present
    rw [insertNonce_contains, present, Bool.or_true]
  · intro tables pair accepted
    have same : (call.hotkey, call.nonce) = pair := by simpa [Call.acceptedAs] using accepted
    simp [insertNonce_contains, same]

theorem Retained.step {wallet : Wallet Key} {s s' : State Key} {event : Event} (inv : Retained s)
    (stepped : step wallet s event = some s') : Retained s' := by
  rcases step_cases stepped with ⟨request, now, -, rfl⟩ | ⟨i, old, reason, -, -, rfl⟩ |
    ⟨i, call, -, at_i, rfl⟩ | ⟨i, call, known, key, -, at_i, rfl⟩
  · exact inv.arrive wallet request now
  · exact inv.reject i _
  · exact inv.inspected at_i
  · exact inv.concluded i call key

theorem section_acceptances {s : State Key} {i : Nat} {old : Call Key} {call : Pending}
    (at_i : s.calls[i]? = some old) (pending : ∀ pair, old.acceptedAs pair = false)
    (proceed : Tables Key → Tables Key × Call Key) (pair : String × String) :
    (s.section i call proceed).acceptances pair = s.acceptances pair ∨
      (s.section i call proceed).acceptances pair = s.acceptances pair +
        ((proceed (purge call.now s.tables s.tables.expiry).1).2.acceptedAs pair).toNat ∧
      (purge call.now s.tables s.tables.expiry).1.nonces.contains (call.hotkey, call.nonce) =
        false := by
  unfold State.section
  have tables := checkNonce_tables s.tables call.hotkey call.nonce call.now
  cases checked : checkNonce s.tables call.hotkey call.nonce call.now with
  | mk after outcome =>
      rw [checked] at tables
      dsimp only at tables
      subst tables
      cases outcome with
      | error failure =>
          exact Or.inl (countP_set_call at_i pair (pending pair) (.failed failure))
      | ok _ =>
          refine Or.inr ⟨countP_set_call at_i pair (pending pair) _, ?_⟩
          exact checkNonce_fresh (by rw [checked])

theorem unreplayed_step (wallet : Wallet Key) (s : State Key) (event : Event) (s' : State Key)
    (inv : Unreplayed s) (early : BeforeLatePurge s event) (stepped : step wallet s event = some s') :
    Unreplayed s' := by
  refine ⟨inv.toRetained.step stepped, fun pair => ?_⟩
  rcases step_cases stepped with ⟨request, now, -, rfl⟩ | ⟨i, old, reason, at_i, pending, rfl⟩ |
    ⟨i, call, -, at_i, rfl⟩ | ⟨i, call, known, key, rfl, at_i, rfl⟩
  · have count : (s.calls ++ [admission wallet request now]).countP (Call.acceptedAs pair) =
        s.acceptances pair := by
      simp [State.acceptances, List.countP_append, admission_not_accepted]
    exact count.trans_le (inv.once pair)
  · exact (countP_set_call at_i pair (pending pair) _).trans_le (inv.once pair)
  · rcases section_acceptances at_i (fun _ => rfl)
      (fun tables => (tables, Call.checked call (tables.keys.get call.hotkey))) pair with
      same | ⟨same, -⟩
    · exact same.trans_le (inv.once pair)
    · exact same.trans_le (inv.once pair)
  · rcases section_acceptances at_i (fun _ => rfl)
      (fun tables => (insertNonce tables call.hotkey call.nonce key,
        Call.accepted call (s.purges.length + 1))) pair with same | ⟨same, fresh⟩
    · exact same.trans_le (inv.once pair)
    · refine same.trans_le ?_
      by_cases new : (call.hotkey, call.nonce) = pair
      · subst new
        simp only [BeforeLatePurge, at_i] at early
        have window : call.now ≤ windowEnd call.nonce :=
          inv.timely _ (List.mem_of_getElem? at_i)
        -- A call accepted before would have left the nonce in the purged table.
        have none_yet : s.acceptances (call.hotkey, call.nonce) = 0 := by
          rw [State.acceptances, List.countP_eq_zero]
          intro other member accepted
          have held := purge_keeps _ _ _ inv.dated _ window
            (inv.held other member _ accepted (early other member accepted))
          rw [fresh] at held
          cases held
        rw [none_yet, Nat.zero_add]
        exact Bool.toNat_le _
      · simp only [Call.acceptedAs, new, decide_false, Bool.toNat_false]
        exact inv.once pair

/-- In every interleaving in which no purge past the window of an accepted nonce lies before the last
critical section of another call with it, no hotkey and nonce are accepted twice. -/
theorem accepted_at_most_once (wallet : Wallet Key) (events : List Event) (s : State Key)
    (ran : run (step wallet) {} events = some s)
    (early : Throughout (step wallet) BeforeLatePurge {} events) (pair : String × String) :
    s.acceptances pair ≤ 1 :=
  (early.invariant ran (unreplayed_step wallet) unreplayed_initial).once pair

/-! ## Two interleavings -/

/-- A wallet that knows every hotkey and accepts every signature. -/
def openWallet : Wallet Unit where
  ss58Format _ := some 42
  keypair _ := some ()
  verify _ _ _ := true
  sha256 _ := "e3b0c44298fc1c149afbf4c8996fb92427ae41e4649b934ca495991b7852b855"

def aliceHotkey : String := "5GrwvaEF5zXb26Fz9rcQpDWS57CtERHpNehXCPcNoHGKutQY"

def signedRequest (hotkey nonce : String) : Request where
  method := "GET"
  path := "/v1/submissions"
  body := []
  headers name :=
    if name = "x-bittensor-version" then some "1"
    else if name = "x-bittensor-receiver" then some "404-witness"
    else if name = "x-bittensor-hotkey" then some hotkey
    else if name = "x-bittensor-nonce" then some nonce
    else if name = "x-bittensor-signature" then some ("0x" ++ String.ofList (List.replicate 128 '0'))
    else none

def aliceNonce : String := "1700000000000000000"

/-- Two calls with one nonce, read at the same moment, one after the other. -/
def sequentialReplay : List Event :=
  [.arrive (signedRequest aliceHotkey aliceNonce) 1700000000000000000,
    .inspect 0 (.ok ()), .conclude 0 (.ok ()),
    .arrive (signedRequest aliceHotkey aliceNonce) 1700000001000000000,
    .inspect 1 (.ok ())]

theorem accepted_at_most_once_sequential :
    ∃ s, run (step openWallet) {} sequentialReplay = some s ∧
      s.acceptances (aliceHotkey, aliceNonce) ≤ 1 :=
  ⟨(run (step openWallet) {} sequentialReplay).get (by decide +kernel), by simp,
    accepted_at_most_once openWallet sequentialReplay _ (by simp) (by decide +kernel) _⟩

/-- The second call reads the clock while the nonce is valid and waits; a third call reads it after
the window and purges the nonce; then the second call enters both of its sections. -/
def delayedReplay : List Event :=
  [.arrive (signedRequest aliceHotkey aliceNonce) 1700000000000000000,
    .arrive (signedRequest aliceHotkey aliceNonce) 1700000000000000001,
    .inspect 0 (.ok ()), .conclude 0 (.ok ()),
    .arrive (signedRequest aliceHotkey "1700000030000000001") 1700000030000000001,
    .inspect 2 (.ok ()), .inspect 1 (.ok ()), .conclude 1 (.ok ())]

theorem accepted_twice :
    (run (step openWallet) {} delayedReplay).map
      (fun s => s.acceptances (aliceHotkey, aliceNonce)) = some 2 := by
  decide +kernel

end GenSubnet.Auth
