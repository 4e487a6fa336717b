import Bonded.InviteTokens

/-! Concurrent calls on the invite file. Nothing holds a lock between the read and the write
of a call, so two calls can use the same contents. The uses of a token are never spent twice
in the runs in which every write finds the file as its call read it. -/
namespace Bonded.InviteRedemption

open Auth Machine InviteTokens

inductive Job
  | redeem (token : String)
  | ensure
  deriving DecidableEq

inductive Answer
  | redeemed (ok : Bool)
  | invite (token : InviteToken)
  deriving DecidableEq

/-- Where a call stands; `seen` is what it has read. -/
inductive CallPhase
  | start
  | read (seen : File InviteToken)
  | ready (seen : File InviteToken) (manager : InviteTokenManager) (answer : Answer)
  | done (answer : Option Answer)
  deriving DecidableEq

structure Call where
  job : Job
  phase : CallPhase
  deriving DecidableEq

/-- The file and the calls, with two histories: the token of every call that returned
`Ok(true)`, and the value of every token that was issued. -/
structure System where
  file : File InviteToken
  calls : Table ℕ Call
  redeemed : List String
  issued : List String
  deriving DecidableEq

inductive Event
  | start (i : ℕ) (job : Job)
  | read (i : ℕ)
  | compute (i : ℕ) (listing : List InviteToken) (clock : Option ℕ) (value : String)
  | write (i : ℕ) (io : Bool)
  deriving DecidableEq

def initial (file : File InviteToken) : System := ⟨file,∅,[],[]⟩

/-- The plan of a call for the contents it has read. -/
def plan (job : Job) (seen : File InviteToken) (listing : List InviteToken) (clock : Option ℕ)
    (value : String) : Plan Answer :=
  match job with
  | .redeem token => (redeemPlan seen token).map .redeemed
  | .ensure => (ensurePlan seen listing clock value).map .invite

def decided (seen : File InviteToken) : Plan Answer → CallPhase
  | .fail => .done none
  | .answer answer => .done (some answer)
  | .write manager answer => .ready seen manager answer

/-- A successful write, with the histories. -/
def persist (s : System) (i : ℕ) (job : Job) (manager : InviteTokenManager) (answer : Answer) :
    System :=
  { file := .entries (allTokens manager)
    calls := s.calls.set i ⟨job,.done (some answer)⟩
    redeemed := match job with
      | .redeem token => token::s.redeemed
      | .ensure => s.redeemed
    issued := match answer with
      | .redeemed _ => s.issued
      | .invite token => token.token::s.issued }

/-- One step of one call. A call that is not continued stands for a stopped server. -/
def step (s : System) : Event → Option System
  | .start i job =>
    match s.calls.get i with
    | some _ => none
    | none => some {s with calls := s.calls.set i ⟨job,.start⟩}
  | .read i =>
    match s.calls.get i with
    | some ⟨job,.start⟩ => some {s with calls := s.calls.set i ⟨job,.read s.file⟩}
    | _ => none
  | .compute i listing clock value =>
    match s.calls.get i with
    | some ⟨job,.read seen⟩ =>
      if Lists seen listing then
        some {s with calls := s.calls.set i ⟨job,decided seen (plan job seen listing clock value)⟩}
      else none
    | _ => none
  | .write i io =>
    match s.calls.get i with
    | some ⟨job,.ready _ manager answer⟩ =>
      if io then some (persist s i job manager answer)
      else some {s with calls := s.calls.set i ⟨job,.done none⟩}
    | _ => none

/-- No other call has written since this one has read, and a newly issued value is not one
that the file holds. -/
def Exclusive (s : System) : Event → Prop
  | .write i io =>
    match s.calls.get i with
    | some ⟨_,.ready seen _ _⟩ => io = true → s.file = seen
    | _ => True
  | .compute i _ _ value =>
    match s.calls.get i with
    | some ⟨.ensure,.read seen⟩ => usesLeft seen value = none
    | _ => True
  | _ => True

instance (s : System) (e : Event) : Decidable (Exclusive s e) := by
  cases e <;> dsimp only [Exclusive] <;> first | infer_instance | (split <;> infer_instance)

/-- The uses of a token as a number; none for a token that is not there. -/
def uses (file : File InviteToken) (token : String) : ℕ :=
  ((usesLeft file token).map UInt32.toNat).getD 0

def Present (file : File InviteToken) (token : String) : Prop := (usesLeft file token).isSome = true

variable {file seen : File InviteToken} {manager : InviteTokenManager} {s : System}

theorem uses_load (h : loadManager file = some manager) (token : String) :
    uses file token = ((manager.get token).map fun t => t.usesRemaining.toNat).getD 0 := by
  rw [uses,usesLeft_load h,Option.map_map]
  rfl

theorem uses_written (h : Keyed manager) (token : String) :
    uses (.entries (allTokens manager)) token =
      ((manager.get token).map fun t => t.usesRemaining.toNat).getD 0 := by
  rw [uses,usesLeft_written h,Option.map_map]
  rfl

theorem present_load (h : loadManager file = some manager) (token : String) :
    Present file token ↔ (manager.get token).isSome = true := by
  rw [Present,usesLeft_load h,Option.isSome_map]

theorem present_written (h : Keyed manager) (token : String) :
    Present (.entries (allTokens manager)) token ↔ (manager.get token).isSome = true := by
  rw [Present,usesLeft_written h,Option.isSome_map]

theorem uses_of_absent {token : String} (h : ¬ Present file token) : uses file token = 0 := by
  simp only [Present,Bool.not_eq_true,Option.isSome_eq_false_iff,Option.isNone_iff_eq_none] at h
  simp [uses,h]

/-- Redeeming a token moves one use from the file to the call, and nothing else. -/
theorem redeem_written {manager' : InviteTokenManager} {token : String}
    (hload : loadManager seen = some manager) (h : redeem manager token = .ok manager')
    (x : String) : uses (.entries (allTokens manager')) x + [token].count x = uses seen x ∧
      (Present (.entries (allTokens manager')) x ↔ Present seen x) := by
  have hkeyed := keyed_redeem (keyed_loadManager hload) h
  rw [uses_written hkeyed,uses_load hload,present_written hkeyed,present_load hload]
  obtain ⟨t,ht,huse,rfl⟩ := redeem_ok h
  by_cases hx : x = token
  · subst hx
    have hpos : 1 ≤ t.usesRemaining := by
      rw [UInt32.le_iff_toNat_le]
      have hne : t.usesRemaining.toNat ≠ 0 := fun h0 => huse (UInt32.toNat_inj.mp h0)
      simp
      omega
    have hone : 1 ≤ t.usesRemaining.toNat := UInt32.le_iff_toNat_le.mp hpos
    simp [ht,UInt32.toNat_sub_of_le _ _ hpos]
    omega
  · simp [Table.get_set_ne hx,Ne.symm hx]

/-- Issuing a token under a new value adds its one use, and nothing else. -/
theorem issue_written {t : InviteToken} (hload : loadManager seen = some manager)
    (hnew : manager.get t.token = none) (hone : t.usesRemaining = 1) (x : String) :
    uses (.entries (allTokens (manager.set t.token t))) x = uses seen x + [t.token].count x ∧
      (Present (.entries (allTokens (manager.set t.token t))) x ↔ Present seen x ∨ x = t.token) := by
  have hkeyed := keyed_set (keyed_loadManager hload) (rfl : t.token = t.token)
  rw [uses_written hkeyed,uses_load hload,present_written hkeyed,present_load hload]
  by_cases hx : x = t.token
  · subst hx
    simp [hnew,hone]
  · simp [Table.get_set_ne hx,hx,Ne.symm hx]

/-- What a call that is about to write has computed from what it has read. -/
def Planned (job : Job) (seen : File InviteToken) (manager : InviteTokenManager) :
    Answer → Prop
  | .redeemed _ => ∃ token before, job = .redeem token ∧ loadManager seen = some before ∧
    redeem before token = .ok manager
  | .invite t => job = .ensure ∧ ∃ before, loadManager seen = some before ∧
    before.get t.token = none ∧ t.usesRemaining = 1 ∧ manager = before.set t.token t

/-- Every use is in the file or was redeemed, and every token that was ever there still is. -/
structure Accounted (file : File InviteToken) (s : System) : Prop where
  balance : ∀ x, uses s.file x + s.redeemed.count x = uses file x + s.issued.count x
  present : ∀ x, Present s.file x ↔ Present file x ∨ x ∈ s.issued
  fresh : ∀ x ∈ s.issued, ¬ Present file x
  planned : ∀ i job seen manager answer,
    s.calls.get i = some ⟨job,.ready seen manager answer⟩ → Planned job seen manager answer

/-- No token disappears, and only issuing a token adds a use to it. -/
def Keeps (s t : System) : Prop :=
  ∀ x, (Present s.file x → Present t.file x) ∧
    (t.issued.count x = s.issued.count x → uses t.file x ≤ uses s.file x)

theorem Keeps.same {t : System} (h : t.file = s.file) : Keeps s t :=
  fun x => by rw [h]; exact ⟨id,fun _ => le_refl _⟩

/-- A step that only moves one call keeps the account. -/
theorem Accounted.move (hs : Accounted file s) (i : ℕ) (call : Call)
    (hcall : ∀ seen manager answer, call.phase = .ready seen manager answer →
      Planned call.job seen manager answer) :
    Accounted file {s with calls := s.calls.set i call} where
  balance := hs.balance
  present := hs.present
  fresh := hs.fresh
  planned := by
    intro j job seen manager answer hget
    rw [Table.get_set] at hget
    split at hget
    · cases hget; exact hcall seen manager answer rfl
    · exact hs.planned j job seen manager answer hget

theorem planned_decided {job : Job} {listing : List InviteToken} {clock : Option ℕ} {value : String}
    (hfresh : job = .ensure → usesLeft seen value = none) {seen' : File InviteToken}
    {answer : Answer}
    (h : decided seen (plan job seen listing clock value) = .ready seen' manager answer) :
    seen' = seen ∧ Planned job seen manager answer := by
  cases job with
  | redeem token =>
    simp only [plan,redeemPlan] at h
    split at h
    · cases h
    · next before hload =>
      split at h
      · cases h
      · next hredeem =>
        cases h
        exact ⟨rfl,token,before,rfl,hload,hredeem⟩
  | ensure =>
    simp only [plan,ensurePlan] at h
    split at h
    · cases h
    · next before hload =>
      split at h
      · cases h
      · cases h
      · cases h
        have hnone := hfresh rfl
        rw [usesLeft_load hload,Option.map_eq_none_iff] at hnone
        exact ⟨rfl,rfl,before,hload,hnone,rfl,rfl⟩

theorem Accounted.persist (hs : Accounted file s) {i : ℕ} {job : Job} {answer : Answer}
    (hplan : Planned job s.file manager answer) :
    Accounted file (persist s i job manager answer) ∧ Keeps s (persist s i job manager answer) := by
  have hplanned : ∀ j job' seen manager' answer', (s.calls.set i ⟨job,.done (some answer)⟩).get j =
      some ⟨job',.ready seen manager' answer'⟩ → Planned job' seen manager' answer' := by
    intro j job' seen manager' answer' hget
    rw [Table.get_set] at hget
    split at hget
    · cases hget
    · exact hs.planned j job' seen manager' answer' hget
  cases answer with
  | redeemed ok =>
    obtain ⟨token,before,rfl,hload,hredeem⟩ := hplan
    have hwritten := redeem_written hload hredeem
    refine ⟨⟨fun x => ?_,fun x => ?_,hs.fresh,hplanned⟩,fun x => ⟨(hwritten x).2.mpr,fun _ => ?_⟩⟩
    · have hbal := hs.balance x
      have hx := (hwritten x).1
      simp only [InviteRedemption.persist,List.count_cons,List.count_nil] at hx ⊢
      omega
    · exact (hwritten x).2.trans (hs.present x)
    · exact Nat.le.intro (hwritten x).1
  | invite t =>
    obtain ⟨rfl,before,hload,hnew,hone,rfl⟩ := hplan
    have hwritten := issue_written hload hnew hone
    refine ⟨⟨fun x => ?_,fun x => ?_,fun x hx => ?_,hplanned⟩,
      fun x => ⟨fun hx => (hwritten x).2.mpr (.inl hx),fun hsame => ?_⟩⟩
    · have hbal := hs.balance x
      have hx := (hwritten x).1
      simp only [InviteRedemption.persist,List.count_cons,List.count_nil] at hx ⊢
      omega
    · simp only [InviteRedemption.persist,(hwritten x).2,hs.present x,List.mem_cons]
      tauto
    · rcases List.mem_cons.mp hx with rfl | hx
      · intro hthere
        have hnow := (hs.present t.token).mpr (.inl hthere)
        rw [present_load hload,hnew] at hnow
        cases hnow
      · exact hs.fresh x hx
    · have hx := (hwritten x).1
      simp only [InviteRedemption.persist,List.count_cons,List.count_nil] at hx hsame ⊢
      omega

theorem accounted_step {t : System} {e : Event} (hs : Accounted file s) (hg : Exclusive s e)
    (h : step s e = some t) : Accounted file t ∧ Keeps s t := by
  cases e with
  | start i job =>
    simp only [step] at h
    split at h <;> cases h
    exact ⟨hs.move i _ (by rintro _ _ _ ⟨⟩),.same rfl⟩
  | read i =>
    simp only [step] at h
    split at h <;> cases h
    exact ⟨hs.move i _ (by rintro _ _ _ ⟨⟩),.same rfl⟩
  | compute i listing clock value =>
    simp only [step] at h
    split at h
    · next job seen hget =>
      split at h <;> cases h
      refine ⟨hs.move i _ fun seen' manager answer hready => ?_,.same rfl⟩
      have hfresh : job = .ensure → usesLeft seen value = none := by
        rintro rfl
        simpa only [Exclusive,hget] using hg
      obtain ⟨rfl,hplan⟩ := planned_decided hfresh hready
      exact hplan
    · cases h
  | write i io =>
    simp only [step] at h
    split at h
    · next job seen manager answer hget =>
      cases io with
      | false =>
        cases h
        exact ⟨hs.move i _ (by rintro _ _ _ ⟨⟩),.same rfl⟩
      | true =>
        cases h
        have hsame : s.file = seen := by simpa [Exclusive,hget] using hg
        exact hs.persist (hsame ▸ hs.planned i job seen manager answer hget)
    · cases h

theorem accounted_initial (file : File InviteToken) : Accounted file (initial file) where
  balance := fun _ => rfl
  present := by simp [initial]
  fresh := by simp [initial]
  planned := by simp [initial]

/-- A token of the initial file is redeemed at most as often as it has uses there, and a
token that was issued later at most once for each time it was issued. -/
def NeverOver (file : File InviteToken) (s : System) : Prop :=
  (∀ x n, usesLeft file x = some n → s.redeemed.count x ≤ n.toNat) ∧
    ∀ x, usesLeft file x = none → s.redeemed.count x ≤ s.issued.count x

theorem Accounted.neverOver (hs : Accounted file s) : NeverOver file s := by
  constructor
  · intro x n hn
    have hbal := hs.balance x
    have hnot : x ∉ s.issued := fun hx => hs.fresh x hx (by simp [Present,hn])
    rw [List.count_eq_zero.mpr hnot,uses.eq_def file,hn] at hbal
    simp only [Option.map_some,Option.getD_some] at hbal
    omega
  · intro x hx
    have hbal := hs.balance x
    have hnone : uses file x = 0 := uses_of_absent (by simp [Present,hx])
    omega

/-- In every interleaving in which each write finds the file as its call has read it, and
each issued value is new, no token is redeemed more often than it has uses, no step adds a
use to another token, and no token disappears. -/
theorem invites_never_over_redeemed (file : File InviteToken) (events : List Event)
    (hex : Meets step Exclusive (initial file) events) :
    Along step (NeverOver file) (initial file) events ∧
      Transitions step (fun s _ t => Keeps s t) (initial file) events :=
  ⟨along_of_meets (fun _ hs => hs.neverOver) (fun _ _ _ hs hg h => (accounted_step hs hg h).1)
      (accounted_initial file) hex,
    transitions_of_meets (fun _ _ _ hs hg h => accounted_step hs hg h) (accounted_initial file) hex⟩

/-- A file with a single-use invite, and another invite with two uses. -/
def twoInvites : File InviteToken := .entries [⟨"once","unix:9",1⟩,⟨"twice","unix:9",2⟩]

/-- Two devices use the same invite, both before either of the two writes. -/
def raced : List Event :=
  [.start 0 (.redeem "once"),.start 1 (.redeem "once"),.start 2 (.redeem "twice"),.read 0,.read 1,
    .read 2,.compute 0 [⟨"once","unix:9",1⟩,⟨"twice","unix:9",2⟩] none "",
    .compute 1 [⟨"once","unix:9",1⟩,⟨"twice","unix:9",2⟩] none "",
    .compute 2 [⟨"once","unix:9",1⟩,⟨"twice","unix:9",2⟩] none "",
    .write 0 true,.write 1 true,.write 2 true]

/-- Both get `Ok(true)` for the single use, and a third call then writes that use back. -/
theorem raced_invite_redeemed_twice :
    usesLeft twoInvites "once" = some 1 ∧
    (exec step (initial twoInvites) raced).map (fun s => s.redeemed.count "once") = some 2 ∧
    (exec step (initial twoInvites) (raced.take 11)).map (fun s => usesLeft s.file "once") =
      some (some 0) ∧
    (exec step (initial twoInvites) raced).map (fun s => usesLeft s.file "once") =
      some (some 1) := by
  decide +kernel

/-- The same devices one after the other, and a restart in between. -/
theorem turns_never_over_redeem :
    let events : List Event := [.start 0 (.redeem "once"),.start 1 (.redeem "once"),.read 0,
      .compute 0 [⟨"once","unix:9",1⟩] none "",.write 0 true,.start 2 .ensure,.read 2,
      .compute 2 [⟨"once","unix:9",0⟩] (some 7) "new",.write 2 true,.read 1,
      .compute 1 [⟨"once","unix:9",0⟩,issuedToken 7 "new"] none ""]
    let file := File.entries [⟨"once","unix:9",1⟩]
    Meets step Exclusive (initial file) events ∧
      (exec step (initial file) events).map (fun s => (s.redeemed,s.issued)) =
        some (["once"],["new"]) ∧
      Along step (NeverOver file) (initial file) events := by
  intro events file
  have hex : Meets step Exclusive (initial file) events := by decide +kernel
  exact ⟨hex,by decide +kernel,(invites_never_over_redeemed file events hex).1⟩

end Bonded.InviteRedemption
