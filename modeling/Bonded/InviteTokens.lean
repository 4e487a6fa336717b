import Bonded.WireGuardRegistry

/-! The invite tokens of the server: the file that holds them, its two functions
`ensure_startup_invite` and `redeem_invite_token`, and their use in sequence. Each function
reads the file, decides what to answer and, when a token changes, writes the file again;
the decision is kept apart from the write so that calls can be interleaved. -/
namespace Bonded.InviteTokens

open Auth Machine WireGuardRegistry

/-- Only the remaining uses decide. -/
def isUsable (token : InviteToken) : Bool := 0 < token.usesRemaining

/-- What a call does once it has read the file. -/
inductive Plan (α : Type)
  | fail
  | answer (value : α)
  | write (manager : InviteTokenManager) (value : α)
  deriving DecidableEq

def Plan.map {α β : Type} (f : α → β) : Plan α → Plan β
  | .fail => .fail
  | .answer value => .answer (f value)
  | .write manager value => .write manager (f value)

/-- Carry out a plan; `io` is the result of the write, and `none` stands for an error. -/
def Plan.finish {α : Type} (file : File InviteToken) (io : Bool) :
    Plan α → File InviteToken × Option α
  | .fail => (file,none)
  | .answer value => (file,some value)
  | .write manager value => if io then (.entries (allTokens manager),some value) else (file,none)

@[simp] theorem Plan.finish_fail {α : Type} (file : File InviteToken) (io : Bool) :
    (Plan.fail : Plan α).finish file io = (file,none) := rfl

@[simp] theorem Plan.finish_answer {α : Type} (file : File InviteToken) (io : Bool) (value : α) :
    (Plan.answer value).finish file io = (file,some value) := rfl

@[simp] theorem Plan.finish_write_some {α : Type} {file : File InviteToken} {io : Bool}
    {manager : InviteTokenManager} {value other : α} :
    ((Plan.write manager value).finish file io).2 = some other ↔ io = true ∧ other = value := by
  cases io <;> simp [Plan.finish,eq_comm]

def redeemPlan (file : File InviteToken) (token : String) : Plan Bool :=
  match loadManager file with
  | none => .fail
  | some manager =>
    match redeem manager token with
    | .error _ => .answer false
    | .ok manager' => .write manager' true

def redeemInviteToken (file : File InviteToken) (token : String) (io : Bool) :
    File InviteToken × Option Bool :=
  (redeemPlan file token).finish file io

def unixText (seconds : ℕ) : String := "unix:"++Nat.repr seconds

/-- The token that is issued under a fresh random value: one use, and 24 hours from now. -/
def issuedToken (now : ℕ) (value : String) : InviteToken :=
  ⟨value,unixText (unixTimestampAfter now (24*60*60)),1⟩

/-- The tokens come in the order `listing` of the map that holds them. A clock before the
epoch, `none`, is an error. -/
def ensurePlan (file : File InviteToken) (listing : List InviteToken) (clock : Option ℕ)
    (value : String) : Plan InviteToken :=
  match loadManager file with
  | none => .fail
  | some manager =>
    match listing.find? isUsable, clock with
    | some existing, _ => .answer existing
    | none, none => .fail
    | none, some now => .write (manager.set value (issuedToken now value)) (issuedToken now value)

def ensureStartupInvite (file : File InviteToken) (listing : List InviteToken)
    (clock : Option ℕ) (value : String) (io : Bool) : File InviteToken × Option InviteToken :=
  (ensurePlan file listing clock value).finish file io

/-- The listing is the map of the file in some order. -/
def Lists (file : File InviteToken) (listing : List InviteToken) : Prop :=
  ∀ manager, loadManager file = some manager → listing.Perm (allTokens manager)

instance (file : File InviteToken) (listing : List InviteToken) : Decidable (Lists file listing) :=
  inferInstanceAs (Decidable (∀ manager, loadManager file = some manager →
    listing.Perm (allTokens manager)))

section Sequence

/-- A call of one of the two functions at a clock value. -/
inductive Call
  | redeem (token : String) (clock : Option ℕ) (io : Bool)
  | ensure (listing : List InviteToken) (clock : Option ℕ) (value : String) (io : Bool)
  deriving DecidableEq

/-- Calls made one after the other; the state is the file. -/
def call (file : File InviteToken) : Call → Option (File InviteToken)
  | .redeem token _ io => some (redeemInviteToken file token io).1
  | .ensure listing clock value io =>
    if Lists file listing then some (ensureStartupInvite file listing clock value io).1 else none

/-- The expiry text names a second that is not after the clock. -/
def Expired (expiresAt : String) (clock : Option ℕ) : Prop :=
  ∃ now s, clock = some now ∧ s ≤ now ∧ expiresAt = unixText s

/-- The call admits no expired token: a redeemed token is not expired, and neither is the
token for the pairing code; when no token can be reused this is a new one for 24 hours. -/
def NoExpired (file : File InviteToken) : Call → Prop
  | .redeem token clock io => (redeemInviteToken file token io).2 = some true →
    ∀ manager t, loadManager file = some manager → manager.get token = some t →
      ¬ Expired t.expiresAt clock
  | .ensure listing clock value io =>
    ∀ t, (ensureStartupInvite file listing clock value io).2 = some t →
      ¬ Expired t.expiresAt clock ∧
      ((∀ x ∈ listing, isUsable x = true → Expired x.expiresAt clock) →
        ∃ now, clock = some now ∧ t = issuedToken now value)

/-- No call meets an expired token with a use left: the token named by a redemption, or the
first usable one in the listing of the startup; and the clock leaves room for a new expiry. -/
def Unexpired (file : File InviteToken) : Call → Prop
  | .redeem token clock io => io = true → ∀ manager t, loadManager file = some manager →
    manager.get token = some t → t.usesRemaining ≠ 0 → ¬ Expired t.expiresAt clock
  | .ensure listing clock _ io => ∀ manager, loadManager file = some manager →
    match listing.find? isUsable with
    | some t => ¬ Expired t.expiresAt clock
    | none => io = true → ∀ now, clock = some now → now+1 < 2^64

theorem redeemInviteToken_true_iff {file : File InviteToken} {token : String} {io : Bool} :
    (redeemInviteToken file token io).2 = some true ↔ io = true ∧ ∃ manager t,
      loadManager file = some manager ∧ manager.get token = some t ∧ t.usesRemaining ≠ 0 := by
  unfold redeemInviteToken redeemPlan
  cases loadManager file with
  | none => simp
  | some manager =>
    cases hget : manager.get token with
    | none => simp [redeem,hget]
    | some t => by_cases huse : t.usesRemaining = 0 <;> simp [redeem,hget,huse]

/-- The three ways in which the startup call answers. -/
theorem ensureStartupInvite_some_iff {file : File InviteToken} {listing : List InviteToken}
    {clock : Option ℕ} {value : String} {io : Bool} {t : InviteToken} :
    (ensureStartupInvite file listing clock value io).2 = some t ↔
      (∃ manager, loadManager file = some manager) ∧ (listing.find? isUsable = some t ∨
        listing.find? isUsable = none ∧ io = true ∧ ∃ now, clock = some now ∧
          t = issuedToken now value) := by
  unfold ensureStartupInvite ensurePlan
  cases loadManager file with
  | none => simp
  | some manager =>
    cases hfind : listing.find? isUsable with
    | some x => simp
    | none => cases clock <;> simp

theorem unixText_injective {m n : ℕ} (h : unixText m = unixText n) : m = n := by
  have hlist : Nat.toDigits 10 m = Nat.toDigits 10 n := by
    simpa [unixText,Nat.repr,← String.toList_inj] using h
  rw [← Nat.ofDigitChars_toDigits (n := m) (by decide) (le_refl 10),hlist,
    Nat.ofDigitChars_toDigits (by decide) (le_refl 10)]

/-- A new token is not expired, unless the clock stands at the end of its range. -/
theorem issuedToken_expired_iff {now : ℕ} {value : String} :
    Expired (issuedToken now value).expiresAt (some now) ↔ 2^64 ≤ now+1 := by
  constructor
  · rintro ⟨now',s,hnow,hle,htext⟩
    cases hnow
    have heq := unixText_injective htext
    simp only [unixTimestampAfter] at heq
    omega
  · intro h
    refine ⟨now,_,rfl,?_,rfl⟩
    simp only [unixTimestampAfter]
    omega

theorem noExpired_iff (file : File InviteToken) (e : Call) :
    NoExpired file e ↔ Unexpired file e := by
  cases e with
  | redeem token clock io =>
    simp only [NoExpired,Unexpired,redeemInviteToken_true_iff]
    constructor
    · intro h hio manager t hload hget huse
      exact h ⟨hio,manager,t,hload,hget,huse⟩ manager t hload hget
    · rintro h ⟨hio,manager,t,hload,hget,huse⟩ manager' t' hload' hget'
      rw [hload] at hload'
      cases hload'
      rw [hget] at hget'
      cases hget'
      exact h hio manager t hload hget huse
  | ensure listing clock value io =>
    simp only [NoExpired,Unexpired,ensureStartupInvite_some_iff]
    cases hfind : listing.find? isUsable with
    | some x =>
      constructor
      · intro h manager hload
        exact (h x ⟨⟨manager,hload⟩,.inl rfl⟩).1
      · rintro h t ⟨⟨manager,hload⟩,ht | ht⟩
        · cases ht
          have hx := h manager hload
          refine ⟨hx,fun hall => absurd ?_ hx⟩
          exact hall x (List.mem_of_find?_eq_some hfind) (List.find?_some hfind)
        · cases ht.1
    | none =>
      constructor
      · intro h manager hload hio now hclock
        have hfresh := (h (issuedToken now value)
          ⟨⟨manager,hload⟩,.inr ⟨rfl,hio,now,hclock,rfl⟩⟩).1
        rw [hclock,issuedToken_expired_iff] at hfresh
        omega
      · rintro h t ⟨⟨manager,hload⟩,ht | ⟨-,hio,now,rfl,rfl⟩⟩
        · cases ht
        · have hroom := h manager hload hio now rfl
          refine ⟨fun hexp => ?_,fun _ => ⟨now,rfl,rfl⟩⟩
          rw [issuedToken_expired_iff] at hexp
          omega

/-- A sequence of calls admits no expired invite exactly when none of its calls meets one
with a use left. -/
theorem no_expired_invite_iff (file : File InviteToken) (calls : List Call) :
    Meets call NoExpired file calls ↔ Meets call Unexpired file calls :=
  meets_congr noExpired_iff

/-- A file with one invite that expired at second 1000 and was never used. -/
def staleFile : File InviteToken := .entries [⟨"old","unix:1000",1⟩]

/-- At second 2000 the startup call returns the expired invite for the pairing code, and a
device is admitted with it. -/
theorem stale_invite_admits :
    Expired "unix:1000" (some 2000) ∧
    (ensureStartupInvite staleFile [⟨"old","unix:1000",1⟩] (some 2000) "new" true).2 =
      some ⟨"old","unix:1000",1⟩ ∧
    (redeemInviteToken staleFile "old" true).2 = some true ∧
    ¬ Meets call NoExpired staleFile [.redeem "old" (some 2000) true] := by
  have hexp : Expired "unix:1000" (some 2000) := ⟨2000,1000,rfl,by decide,by decide⟩
  have hload : loadManager staleFile = some (fromTokens [⟨"old","unix:1000",1⟩]) := rfl
  refine ⟨hexp,by decide,by decide,fun h => ?_⟩
  exact h.1 (by decide) _ ⟨"old","unix:1000",1⟩ hload (by decide) hexp

end Sequence

end Bonded.InviteTokens
