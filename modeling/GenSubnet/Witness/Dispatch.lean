import GenSubnet.Witness.Records

/-!
# Dispatch of an exchange

Any number of Pods run the operations of `CallRecords` on the record of one request. What they do is
a run of the journal of `Library.Journal` for the change of `Witness.Records`, so its writes are a
sequential history, and the facts about an exchange are proved along that history: it is authorized
at most once, by the Pod that claimed it, and a result that was issued stays.
-/

namespace GenSubnet.Witness
open Library Library.Journal

abbrev CallCommit := Commit CallRecord Op Nat Reply
abbrev CallState := Journal.State CallRecord Op Nat Reply RecordingConflict

/-- The commit authorizes the exchange: an `authorize` that raises commits nothing. -/
def Authorizes (exchange : Uuid) (c : CallCommit) : Prop :=
  ∃ pod now, c.op = .authorize pod exchange now

instance (exchange : Uuid) (c : CallCommit) : Decidable (Authorizes exchange c) :=
  match h : c.op with
  | .authorize pod e now =>
      decidable_of_iff (e = exchange) (by simp [Authorizes, h])
  | .reserve | .retry _ | .assign _ _ _ _ | .claim _ _ | .issued _ _ _ | .failed _ _ _ _ _ =>
      isFalse (by simp [Authorizes, h])

/-- The Pod has claimed the exchange, and it has been current in every record since. -/
def ClaimedBy (pod : String) (exchange : Uuid) (commits : List CallCommit) : Prop :=
  ∃ earlier claim later capture, commits = earlier ++ claim :: later ∧
    claim.op = .claim pod capture ∧ claim.result = .claimed true ∧
    ∀ d ∈ claim :: later, d.after.call.exchangeId = exchange

theorem ClaimedBy.concat {pod : String} {exchange : Uuid} {commits : List CallCommit}
    (claimed : ClaimedBy pod exchange commits) {c : CallCommit}
    (current : c.after.call.exchangeId = exchange) :
    ClaimedBy pod exchange (commits ++ [c]) := by
  obtain ⟨earlier, claim, later, capture, rfl, op, result, since⟩ := claimed
  refine ⟨earlier, claim, later ++ [c], capture, by simp, op, result, ?_⟩
  intro d member
  rw [← List.cons_append] at member
  rcases List.mem_append.mp member with member | member
  · exact since d member
  · obtain rfl := List.mem_singleton.mp member
    exact current

variable (digests : Digests) (exchangeSeconds : Nat) (scope : Scope) (request : RequestKey)

abbrev CallHistory := Sequential (change digests exchangeSeconds scope request)

/-- What the history says about exchanges, and about the call that the next change starts from. -/
structure Fenced (commits : List CallCommit) (call : Call) : Prop where
  known : call.exchangeId = firstExchange digests scope request ∨
    ∃ c ∈ commits, call.exchangeId = .drawn c.seed 0
  drawn : ∀ exchange, ∀ c ∈ commits, Authorizes exchange c →
    exchange = firstExchange digests scope request ∨ ∃ d ∈ commits, exchange = .drawn d.seed 0
  once : ∀ exchange, commits.countP (Authorizes exchange) ≤ 1
  flagged : ∀ c ∈ commits, Authorizes call.exchangeId c → call.authorized = true
  claimed : call.phase = .capturing →
    ∃ pod, call.podId = some pod ∧ ClaimedBy pod call.exchangeId commits

variable {digests scope request}
variable {commits : List CallCommit} {call : Call}

theorem Fenced.known_concat (fenced : Fenced digests scope request commits call) (c : CallCommit) :
    call.exchangeId = firstExchange digests scope request ∨
      ∃ d ∈ commits ++ [c], call.exchangeId = .drawn d.seed 0 := by
  refine fenced.known.imp_right ?_
  rintro ⟨d, member, drawn⟩
  exact ⟨d, List.mem_append_left _ member, drawn⟩

theorem Fenced.drawn_concat (fenced : Fenced digests scope request commits call) (c : CallCommit)
    (own : ∀ exchange, Authorizes exchange c → exchange = call.exchangeId) :
    ∀ exchange, ∀ d ∈ commits ++ [c], Authorizes exchange d →
      exchange = firstExchange digests scope request ∨
        ∃ d ∈ commits ++ [c], exchange = .drawn d.seed 0 := by
  intro exchange d member authorizes
  rcases List.mem_append.mp member with member | member
  · refine (fenced.drawn exchange d member authorizes).imp_right ?_
    rintro ⟨d, member, drawn⟩
    exact ⟨d, List.mem_append_left _ member, drawn⟩
  · obtain rfl := List.mem_singleton.mp member
    rw [own exchange authorizes]
    exact fenced.known_concat d

theorem Fenced.unauthorized (fenced : Fenced digests scope request commits call)
    (authorized : call.authorized = false) :
    commits.countP (Authorizes call.exchangeId) = 0 := by
  rw [List.countP_eq_zero]
  intro c member authorizes
  have := fenced.flagged c member (of_decide_eq_true authorizes)
  simp [authorized] at this

theorem Fenced.quiet (fenced : Fenced digests scope request commits call) {c : CallCommit}
    {after : Call} (quiet : ∀ exchange, ¬ Authorizes exchange c)
    (known : after.exchangeId = firstExchange digests scope request ∨
      ∃ d ∈ commits ++ [c], after.exchangeId = .drawn d.seed 0)
    (flagged : ∀ d ∈ commits, Authorizes after.exchangeId d → after.authorized = true)
    (claimed : after.phase = .capturing →
      ∃ pod, after.podId = some pod ∧ ClaimedBy pod after.exchangeId (commits ++ [c])) :
    Fenced digests scope request (commits ++ [c]) after where
  known := known
  drawn := fenced.drawn_concat c fun exchange authorizes => absurd authorizes (quiet exchange)
  once exchange := by
    simpa [List.countP_append, quiet exchange] using fenced.once exchange
  flagged d member authorizes := by
    rcases List.mem_append.mp member with member | member
    · exact flagged d member authorizes
    · obtain rfl := List.mem_singleton.mp member
      exact absurd authorizes (quiet _)
  claimed := claimed

theorem not_authorizes {c : CallCommit} (quiet : ∀ pod exchange now, c.op ≠ .authorize pod exchange now)
    (exchange : Uuid) : ¬ Authorizes exchange c := by
  rintro ⟨pod, now, op⟩
  exact quiet pod exchange now op

theorem Fenced.step (fenced : Fenced digests scope request commits call) {c : CallCommit}
    (fresh : c.seed ∉ commits.map Commit.seed)
    (moves : Moves c.seed call c.op c.after.call c.result) :
    Fenced digests scope request (commits ++ [c]) c.after.call := by
  obtain ⟨client, op, seed, before, ⟨revision, scopeKey, after⟩, result⟩ := c
  simp only at moves fresh ⊢
  cases moves with
  | stays quiet unclaimed =>
      refine fenced.quiet (not_authorizes quiet) (fenced.known_concat _) fenced.flagged ?_
      intro phase
      obtain ⟨pod, owner, claimed⟩ := fenced.claimed phase
      exact ⟨pod, owner, claimed.concat rfl⟩
  | replaced failed exchange unauthorized phase asked =>
      have quiet : ∀ pod exchange now, op ≠ .authorize pod exchange now := by
        intro pod exchange now
        rcases asked with rfl | ⟨_, _, _, rfl⟩ <;> exact nofun
      refine fenced.quiet (not_authorizes quiet) (Or.inr ⟨_, List.mem_append_right _ List.mem_cons_self, exchange⟩) ?_ ?_
      · intro d member authorizes
        rw [exchange] at authorizes
        rcases fenced.drawn _ d member authorizes with first | ⟨e, known, drawn⟩
        · cases first
        · obtain ⟨same, -⟩ := Uuid.drawn.inj drawn
          exact absurd (List.mem_map.mpr ⟨e, known, same.symm⟩) fresh
      · intro capturing
        rcases phase with phase | phase <;> rw [phase] at capturing <;> cases capturing
  | assigned phase exchange authorized phase' quiet =>
      refine fenced.quiet (not_authorizes quiet) ?_ ?_ ?_
      · rw [exchange]
        exact fenced.known_concat _
      · rw [exchange, authorized]
        exact fenced.flagged
      · intro capturing
        simp [phase'] at capturing
  | @claimed pod capture phase owner =>
      refine fenced.quiet (not_authorizes (by simp)) (fenced.known_concat _) fenced.flagged ?_
      intro _
      refine ⟨pod, owner, commits, _, [], capture, rfl, rfl, rfl, ?_⟩
      intro d member
      obtain rfl := List.mem_singleton.mp member
      rfl
  | @authorized pod now deadline phase owner unauthorized =>
      refine ⟨fenced.known_concat _, fenced.drawn_concat _ ?_, ?_, fun _ _ _ => rfl, ?_⟩
      · rintro exchange ⟨pod', now', op⟩
        exact (Op.authorize.inj op).2.1.symm
      · intro exchange
        rw [List.countP_append, List.countP_singleton]
        by_cases same : exchange = call.exchangeId
        · subst same
          rw [fenced.unauthorized unauthorized]
          split <;> omega
        · have other : ¬ Authorizes exchange
              ⟨client, .authorize pod call.exchangeId now, seed, before, ⟨revision, scopeKey,
                { call with authorized := true, deadline := some deadline }⟩, .deadline deadline⟩ := by
            rintro ⟨pod', now', op⟩
            exact same (Op.authorize.inj op).2.1.symm
          simpa [other] using fenced.once exchange
      · intro capturing
        obtain ⟨pod, owner, claimed⟩ := fenced.claimed phase
        exact ⟨pod, owner, claimed.concat rfl⟩
  | ended phase exchange authorized phase' quiet =>
      refine fenced.quiet (not_authorizes quiet) ?_ ?_ ?_
      · rw [exchange]
        exact fenced.known_concat _
      · rw [exchange, authorized]
        exact fenced.flagged
      · intro capturing
        rcases phase' with ⟨phase', -⟩ | phase' <;> simp [phase'] at capturing

variable {exchangeSeconds}

theorem Fenced.of_history {data : Option CallRecord}
    (history : CallHistory digests exchangeSeconds scope request commits data) :
    Fenced digests scope request commits (startingCall digests scope request data) := by
  induction history with
  | nil =>
      refine ⟨Or.inl rfl, by simp, by simp, by simp, ?_⟩
      intro capturing
      simp [startingCall, newCall] at capturing
  | concat history changed fresh client ih =>
      exact ih.step fresh (change_moves digests exchangeSeconds scope request changed)

/-! ## The result of an exchange -/

/-- The call was issued with this digest. -/
def Call.IssuedWith (call : Call) (exchange : Uuid) (digest : String) : Prop :=
  call.phase = .issued ∧ call.exchangeId = exchange ∧ call.manifestSha256 = some digest

theorem Moves.issued {seed : Nat} {before after : Call} {op : Op} {reply : Reply}
    (moves : Moves seed before op after reply) (issued : before.phase = .issued) : after = before := by
  cases moves with
  | stays quiet unclaimed => rfl
  | replaced failed exchange unauthorized phase asked => simp [issued] at failed
  | assigned phase exchange authorized phase' quiet => simp [issued] at phase
  | claimed phase owner => simp [issued] at phase
  | authorized phase owner unauthorized => simp [issued] at phase
  | ended phase exchange authorized phase' quiet => simp [issued] at phase

theorem Moves.digest {seed : Nat} {before after : Call} {op : Op} {reply : Reply}
    (moves : Moves seed before op after reply)
    (digest : before.phase = .issued → before.manifestSha256.isSome)
    (issued : after.phase = .issued) : after.manifestSha256.isSome := by
  cases moves with
  | stays quiet unclaimed => exact digest issued
  | replaced failed exchange unauthorized phase asked =>
      rcases phase with phase | phase <;> simp [phase] at issued
  | assigned phase exchange authorized phase' quiet => simp [phase'] at issued
  | claimed phase owner => simp at issued
  | authorized phase owner unauthorized => simp [phase] at issued
  | ended phase exchange authorized phase' quiet =>
      rcases phase' with ⟨-, digest⟩ | failed
      · exact digest
      · simp [failed] at issued

theorem digest_of_history {data : Option CallRecord}
    (history : CallHistory digests exchangeSeconds scope request commits data)
    (issued : (startingCall digests scope request data).phase = .issued) :
    (startingCall digests scope request data).manifestSha256.isSome := by
  induction history with
  | nil => simp [startingCall, newCall] at issued
  | concat history changed fresh client ih =>
      exact (change_moves digests exchangeSeconds scope request changed).digest ih issued

theorem issued_stays {pre post : List CallCommit} {c : CallCommit} {data : Option CallRecord}
    {exchange : Uuid} {digest : String}
    (history : CallHistory digests exchangeSeconds scope request (pre ++ c :: post) data)
    (issued : c.after.call.IssuedWith exchange digest) :
    (∀ d ∈ post, d.after.call.IssuedWith exchange digest) ∧
      (startingCall digests scope request data).IssuedWith exchange digest := by
  induction post using List.reverseRecOn generalizing data with
  | nil =>
      generalize h : pre ++ [c] = commits at history
      cases history with
      | nil => simp at h
      | concat history changed fresh client =>
          obtain ⟨-, last⟩ := List.append_inj' h rfl
          obtain rfl := List.head_eq_of_cons_eq last
          exact ⟨by simp, issued⟩
  | append_singleton post last ih =>
      generalize h : pre ++ c :: (post ++ [last]) = commits at history
      cases history with
      | nil => simp at h
      | concat history changed fresh client =>
          rw [← List.cons_append, ← List.append_assoc] at h
          obtain ⟨rfl, same⟩ := List.append_inj' h rfl
          obtain rfl := List.head_eq_of_cons_eq same
          obtain ⟨earlier, before⟩ := ih history
          have moves := change_moves digests exchangeSeconds scope request changed
          have after : last.after.call.IssuedWith exchange digest := by
            rw [moves.issued before.1]
            exact before
          refine ⟨?_, after⟩
          intro d member
          rcases List.mem_append.mp member with member | member
          · exact earlier d member
          · obtain rfl := List.mem_singleton.mp member
            exact after

theorem authorized_after_claim {pre post : List CallCommit} {c : CallCommit}
    {data : Option CallRecord} {pod : String} {exchange : Uuid} {now : Nat}
    (history : CallHistory digests exchangeSeconds scope request (pre ++ c :: post) data)
    (op : c.op = .authorize pod exchange now) : ClaimedBy pod exchange pre := by
  obtain ⟨before, changed, -⟩ := history.split
  have moves := change_moves digests exchangeSeconds scope request changed
  rw [op] at moves
  generalize c.after.call = after at moves
  generalize c.result = result at moves
  cases moves with
  | stays quiet unclaimed => exact absurd rfl (quiet _ _ _)
  | replaced failed exchange unauthorized phase asked =>
      rcases asked with asked | ⟨_, _, _, asked⟩ <;> cases asked
  | assigned phase exchange authorized phase' quiet => exact absurd rfl (quiet _ _ _)
  | authorized phase owner unauthorized =>
      obtain ⟨pod', owner', claimed⟩ := (Fenced.of_history before).claimed phase
      rw [owner] at owner'
      obtain rfl := Option.some.inj owner'
      exact claimed
  | ended phase exchange authorized phase' quiet => exact absurd rfl (quiet _ _ _)

theorem eq_of_countP_le_one {p : CallCommit → Prop} [DecidablePred p]
    (once : commits.countP p ≤ 1) {c d : CallCommit} (member : c ∈ commits) (member' : d ∈ commits)
    (holds : p c) (holds' : p d) : c = d := by
  rw [List.countP_eq_length_filter] at once
  have c_in : c ∈ commits.filter p := by simp [member, holds]
  have d_in : d ∈ commits.filter p := by simp [member', holds']
  match h : commits.filter p with
  | [] => simp [h] at c_in
  | [only] =>
      rw [h] at c_in d_in
      rw [List.mem_singleton.mp c_in, List.mem_singleton.mp d_in]
  | _ :: _ :: _ =>
      rw [h] at once
      simp at once

/-- In every interleaving of the operations of any number of Pods on one request: at most one write
authorizes an exchange, so at most one `authorize` of it returns; each write that does follows a
successful claim by the same Pod with the exchange current in every record between; and once a
record is issued, every later record is issued with the same exchange and digest. -/
theorem dispatched_once_issued_for_good {events : List (Event Op Nat)} {s : CallState}
    (ran : run (Journal.step (change digests exchangeSeconds scope request)) {} events = some s) :
    (∀ exchange, s.commits.countP (Authorizes exchange) ≤ 1) ∧
    (∀ (i j : Nat) pod pod' exchange now now' reply reply',
      s.clients[i]? = some ⟨.authorize pod exchange now, .returned reply⟩ →
      s.clients[j]? = some ⟨.authorize pod' exchange now', .returned reply'⟩ → i = j) ∧
    (∀ (i : Nat) pod exchange now reply,
      s.clients[i]? = some ⟨.authorize pod exchange now, .returned reply⟩ →
      ∃ c ∈ s.commits, c.client = i ∧ c.op = .authorize pod exchange now) ∧
    (∀ pre c post pod exchange now, s.commits = pre ++ c :: post →
      c.op = .authorize pod exchange now → ClaimedBy pod exchange pre) ∧
    (∀ pre c post, s.commits = pre ++ c :: post → c.after.call.phase = .issued →
      ∃ digest, c.after.call.manifestSha256 = some digest ∧
        (∀ d ∈ post, d.after.call.IssuedWith c.after.call.exchangeId digest) ∧
        ∃ record, s.store.data = some record ∧
          record.call.IssuedWith c.after.call.exchangeId digest) := by
  have inv := linearizable (change digests exchangeSeconds scope request) ran
  have fenced := Fenced.of_history inv.history
  have committed : ∀ (i : Nat) op reply, s.clients[i]? = some ⟨op, .returned reply⟩ →
      ∃ c ∈ s.commits, c.client = i ∧ c.op = op := by
    intro i op reply at_i
    obtain ⟨c, member, client, same, -⟩ := inv.sound i _ at_i
    exact ⟨c, member, client, same⟩
  refine ⟨fenced.once, ?_, ?_, ?_, ?_⟩
  · intro i j pod pod' exchange now now' reply reply' at_i at_j
    obtain ⟨c, member, rfl, op⟩ := committed i _ _ at_i
    obtain ⟨d, member', rfl, op'⟩ := committed j _ _ at_j
    have authorizes : Authorizes exchange c := ⟨pod, now, op⟩
    have authorizes' : Authorizes exchange d := ⟨pod', now', op'⟩
    rw [eq_of_countP_le_one (fenced.once exchange) member member' authorizes authorizes']
  · intro i pod exchange now reply at_i
    exact committed i _ _ at_i
  · intro pre c post pod exchange now split op
    have history := inv.history
    rw [split] at history
    exact authorized_after_claim history op
  · intro pre c post split issued
    have history := inv.history
    rw [split] at history
    have last : Sequential (change digests exchangeSeconds scope request) (pre ++ [c])
        (some c.after) := by
      obtain ⟨before, changed, fresh⟩ := history.split
      have nodup := history.nodup
      refine .concat before changed fresh ?_
      intro member
      simp only [List.map_append, List.map_cons] at nodup
      exact List.disjoint_of_nodup_append nodup member (by simp)
    obtain ⟨digest, has⟩ := Option.isSome_iff_exists.mp (digest_of_history last issued)
    obtain ⟨later, current⟩ := issued_stays history ⟨issued, rfl, has⟩
    refine ⟨digest, has, later, ?_⟩
    cases data : s.store.data with
    | none =>
        rw [data] at current
        simp [startingCall, newCall, Call.IssuedWith] at current
    | some record =>
        rw [data] at current
        exact ⟨record, rfl, current⟩

/-! ## One dispatched exchange -/

def sampleScope : Scope := ⟨"prod", "round-7", "5FHneW46xGXgs5mUiveU4sbTyGBzmstUspZC92UhjJM694ty"⟩

def emptyObjectHash : String := "44136fa355b3678a1146ad16f7e8649e94fb4fc21fe77e8310c060f61caaff8a"

def sampleRequest : RequestKey := ⟨.api, emptyObjectHash, 0, none⟩

/-- The hashes of the request and of the manifest below. -/
def sampleDigests : Digests where
  callId _ := "bca95e5b4f24b3a33c5cdc3152e9b56edb6e79df64b235b2158554eff2b038e8"
  sha256 _ := emptyObjectHash

def sampleExchange : Uuid := firstExchange sampleDigests sampleScope sampleRequest

/-- A call that meets no conflict. -/
def undisturbed (i : Nat) (op : Op) : List (Event Op Nat) :=
  [.call op, .load i, .send i i, .land i]

/-- Two Pods are assigned the call one after the other; the second claims and authorizes it and
issues the manifest `{}`, while a second authorization raises and a retry comes too late. -/
def sampleEvents : List (Event Op Nat) :=
  undisturbed 0 (.assign "start-1" "pod-1" true none) ++
  undisturbed 1 (.assign "start-2" "pod-2" true none) ++
  undisturbed 2 (.claim "pod-2" (.drawn 1 1)) ++
  undisturbed 3 (.authorize "pod-2" sampleExchange 1700000000) ++
  [.call (.authorize "pod-2" sampleExchange 1700000001), .load 4, .send 4 4] ++
  undisturbed 5 (.issued "pod-2" [123, 125] sampleExchange) ++
  undisturbed 6 (.retry sampleExchange)

def sampleState : CallState :=
  (run (Journal.step (change sampleDigests 1800 sampleScope sampleRequest)) {} sampleEvents).getD {}

theorem sampleState_ran :
    run (Journal.step (change sampleDigests 1800 sampleScope sampleRequest)) {} sampleEvents =
      some sampleState := by
  have enabled : (run (Journal.step (change sampleDigests 1800 sampleScope sampleRequest)) {}
      sampleEvents).isSome := by decide +kernel
  obtain ⟨s, ran⟩ := Option.isSome_iff_exists.mp enabled
  rw [sampleState, ran, Option.getD_some]

theorem dispatched_once_issued_for_good_sample :
    sampleState.commits.countP (Authorizes sampleExchange) = 1 ∧
    (∀ exchange, sampleState.commits.countP (Authorizes exchange) ≤ 1) ∧
    ∃ record, sampleState.store.data = some record ∧
      record.call.IssuedWith sampleExchange emptyObjectHash := by
  obtain ⟨once, -, -, -, issued⟩ := dispatched_once_issued_for_good sampleState_ran
  refine ⟨by decide +kernel, once, ?_⟩
  have split : sampleState.commits =
      sampleState.commits.take 4 ++ sampleState.commits.get ⟨4, by decide +kernel⟩ ::
        sampleState.commits.drop 5 := by
    rw [List.get_eq_getElem, ← List.drop_eq_getElem_cons, List.take_append_drop]
  obtain ⟨digest, has, -, record, data, result⟩ := issued _ _ _ split (by decide +kernel)
  have exchange : (sampleState.commits.get ⟨4, by decide +kernel⟩).after.call.exchangeId =
      sampleExchange := by decide +kernel
  have manifest : (sampleState.commits.get ⟨4, by decide +kernel⟩).after.call.manifestSha256 =
      some emptyObjectHash := by decide +kernel
  rw [manifest] at has
  obtain rfl := Option.some.inj has
  rw [exchange] at result
  exact ⟨record, data, result⟩

end GenSubnet.Witness
