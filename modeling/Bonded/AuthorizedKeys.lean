import Bonded.Auth
import Bonded.Machine

/-! Concurrent updates of the authorized-keys file. `authorize_device_key` loads the file,
looks for the key and writes the file back with the key added; no lock spans these steps,
and an administrator may rewrite the file between any two of them. -/
namespace Bonded.AuthorizedKeys

open Auth Machine

/-- Where a call stands after its load; the result `none` is an error. -/
inductive CallPhase
  | loaded
  | writing (devices : List AuthorizedDevice)
  | done (result : Option Bool)
  deriving DecidableEq

/-- A call with what it has loaded, and how many writes the file had seen by then. -/
structure Call where
  publicKey : String
  seen : File AuthorizedDevice
  version : ℕ
  phase : CallPhase
  deriving DecidableEq

/-- The file and the calls, with the history since the administrator's last rewrite: the
keys of that rewrite, the keys for which a call returned `Ok`, and the keys written by calls
that started after it. -/
structure System where
  file : File AuthorizedDevice
  calls : Table ℕ Call
  version : ℕ
  rewrittenAt : ℕ
  base : List String
  returned : List String
  authorized : List String
  deriving DecidableEq

inductive Event
  | load (i : ℕ) (publicKey : String)
  | check (i : ℕ)
  | write (i : ℕ) (io : Bool)
  | rewrite (file : File AuthorizedDevice)
  deriving DecidableEq

def keysOf (file : File AuthorizedDevice) : List String :=
  (file.load.getD []).map AuthorizedDevice.publicKey

def initial (file : File AuthorizedDevice) : System := ⟨file,∅,0,0,keysOf file,[],[]⟩

/-- The decision of a call about the contents it has loaded. -/
def checked (seen : File AuthorizedDevice) (publicKey : String) : CallPhase :=
  match seen.load with
  | none => .done none
  | some devices =>
    match authorizeDeviceKey devices publicKey with
    | none => .done (some false)
    | some written => .writing written

/-- The keys for which a call has returned, after one that ends in the given phase. -/
def recordReturn (returned : List String) (publicKey : String) : CallPhase → List String
  | .done (some _) => publicKey::returned
  | _ => returned

/-- One step of a call, or a complete rewrite by the administrator. -/
def step (s : System) : Event → Option System
  | .load i publicKey =>
    match s.calls.get i with
    | some _ => none
    | none => some {s with calls := s.calls.set i ⟨publicKey,s.file,s.version,.loaded⟩}
  | .check i =>
    match s.calls.get i with
    | some ⟨publicKey,seen,version,.loaded⟩ =>
      some {s with
        calls := s.calls.set i ⟨publicKey,seen,version,checked seen publicKey⟩
        returned := recordReturn s.returned publicKey (checked seen publicKey)}
    | _ => none
  | .write i io =>
    match s.calls.get i with
    | some ⟨publicKey,seen,version,.writing devices⟩ =>
      if io then some {s with
        file := .entries devices
        calls := s.calls.set i ⟨publicKey,seen,version,.done (some true)⟩
        version := s.version+1
        returned := publicKey::s.returned
        authorized := if s.rewrittenAt ≤ version then publicKey::s.authorized else s.authorized}
      else some {s with calls := s.calls.set i ⟨publicKey,seen,version,.done none⟩}
    | _ => none
  | .rewrite file =>
    some ⟨file,s.calls,s.version+1,s.version+1,keysOf file,[],[]⟩

/-- The file was not written since the call loaded it. -/
def Current (s : System) (i : ℕ) : Prop :=
  match s.calls.get i with
  | some call => call.version = s.version
  | none => True

/-- Nothing is written between the load and the last step of a call, and the administrator
lists no key twice. -/
def Exclusive (s : System) : Event → Prop
  | .load _ _ => True
  | .check i | .write i _ => Current s i
  | .rewrite file => (keysOf file).Nodup

instance (s : System) (i : ℕ) : Decidable (Current s i) := by
  dsimp only [Current]
  split <;> infer_instance

instance (s : System) (e : Event) : Decidable (Exclusive s e) := by
  cases e <;> dsimp only [Exclusive] <;> infer_instance

/-- Every key that was answered `Ok` since the last rewrite is in the file, no key is there
twice, and every key there is one of the rewrite or was authorized by a call started since. -/
structure NoLostUpdate (s : System) : Prop where
  kept : ∀ k ∈ s.returned, k ∈ keysOf s.file
  nodup : (keysOf s.file).Nodup
  known : ∀ k ∈ keysOf s.file, k ∈ s.base ∨ k ∈ s.authorized

/-- The calls against the file: none has loaded a later version, one that has loaded the
current version has loaded the file, and what is about to be written adds one key. -/
structure Sound (s : System) : Prop extends NoLostUpdate s where
  stamped : s.rewrittenAt ≤ s.version
  older : ∀ i call, s.calls.get i = some call → call.version ≤ s.version
  same : ∀ i call, s.calls.get i = some call → call.version = s.version → call.seen = s.file
  planned : ∀ i call written, s.calls.get i = some call → call.phase = .writing written →
    ∃ devices, call.seen.load = some devices ∧
      authorizeDeviceKey devices call.publicKey = some written

variable {file : File AuthorizedDevice} {publicKey : String} {written : List AuthorizedDevice}
  {s : System}

theorem keysOf_load {devices : List AuthorizedDevice} (h : file.load = some devices) :
    keysOf file = devices.map AuthorizedDevice.publicKey := by
  rw [keysOf,h,Option.getD_some]

theorem keysOf_written {devices : List AuthorizedDevice} (hload : file.load = some devices)
    (h : authorizeDeviceKey devices publicKey = some written) :
    publicKey ∉ keysOf file ∧ keysOf (.entries written) = keysOf file++[publicKey] := by
  obtain ⟨hnew,rfl⟩ := authorizeDeviceKey_some h
  rw [keysOf_load hload]
  refine ⟨?_,by simp [keysOf,File.load,newDevice]⟩
  rintro hmem
  obtain ⟨d,hd,hkey⟩ := List.mem_map.mp hmem
  exact hnew d hd hkey

theorem checked_false {seen : File AuthorizedDevice} {result : Bool}
    (h : checked seen publicKey = .done (some result)) : publicKey ∈ keysOf seen := by
  unfold checked at h
  split at h
  · cases h
  · next devices hload =>
    split at h
    · next hthere =>
      obtain ⟨d,hd,hkey⟩ := authorizeDeviceKey_none hthere
      rw [keysOf_load hload]
      exact List.mem_map.mpr ⟨d,hd,hkey⟩
    · cases h

theorem checked_writing {seen : File AuthorizedDevice}
    (h : checked seen publicKey = .writing written) :
    ∃ devices, seen.load = some devices ∧ authorizeDeviceKey devices publicKey = some written := by
  unfold checked at h
  split at h
  · cases h
  · next devices hload =>
    split at h
    · cases h
    · next hwrite => cases h; exact ⟨devices,hload,hwrite⟩

/-- A call that moves on keeps what is known about the calls. -/
theorem Sound.move (hs : Sound s) {i : ℕ} {call : Call} (holder : call.version ≤ s.version)
    (hsame : call.version = s.version → call.seen = s.file)
    (hplanned : ∀ written, call.phase = .writing written → ∃ devices,
      call.seen.load = some devices ∧ authorizeDeviceKey devices call.publicKey = some written)
    {returned : List String} (hkept : ∀ k ∈ returned, k ∈ keysOf s.file) :
    Sound {s with calls := s.calls.set i call, returned := returned} where
  kept := hkept
  nodup := hs.nodup
  known := hs.known
  stamped := hs.stamped
  older := by
    intro j c hget
    rw [Table.get_set] at hget
    split at hget
    · cases hget; exact holder
    · exact hs.older j c hget
  same := by
    intro j c hget
    rw [Table.get_set] at hget
    split at hget
    · cases hget; exact hsame
    · exact hs.same j c hget
  planned := by
    intro j c written hget
    rw [Table.get_set] at hget
    split at hget
    · cases hget; exact hplanned written
    · exact hs.planned j c written hget

/-- A write that finds the file as its call loaded it adds the key and loses nothing. -/
theorem Sound.write (hs : Sound s) {i : ℕ} {call : Call} (hget : s.calls.get i = some call)
    (hphase : call.phase = .writing written) (hcurrent : call.version = s.version) (done : Call)
    (hdone : done.version ≤ s.version) (hfinal : ∀ w, done.phase ≠ .writing w) : Sound {s with
      file := .entries written
      calls := s.calls.set i done
      version := s.version+1
      returned := call.publicKey::s.returned
      authorized := if s.rewrittenAt ≤ call.version then call.publicKey::s.authorized
        else s.authorized} := by
  obtain ⟨devices,hload,hwrite⟩ := hs.planned i call written hget hphase
  rw [hs.same i call hget hcurrent] at hload
  obtain ⟨hnew,hkeys⟩ := keysOf_written hload hwrite
  have holder : ∀ j c, (s.calls.set i done).get j = some c → c.version ≤ s.version := by
    intro j c hc
    rw [Table.get_set] at hc
    split at hc
    · cases hc; exact hdone
    · exact hs.older j c hc
  rw [if_pos (by rw [hcurrent]; exact hs.stamped)]
  refine ⟨⟨?_,?_,?_⟩,?_,?_,?_,?_⟩
  · intro k hk
    simp only [hkeys,List.mem_append,List.mem_singleton]
    rcases List.mem_cons.mp hk with rfl | hk
    · exact .inr rfl
    · exact .inl (hs.kept k hk)
  · simp only [hkeys,← List.concat_eq_append]
    exact hs.nodup.concat hnew
  · intro k hk
    simp only [hkeys,List.mem_append,List.mem_singleton] at hk
    rcases hk with hk | rfl
    · exact (hs.known k hk).imp id (List.mem_cons_of_mem _)
    · exact .inr List.mem_cons_self
  · exact Nat.le_succ_of_le hs.stamped
  · intro j c hc
    exact Nat.le_succ_of_le (holder j c hc)
  · intro j c hc heq
    have := holder j c hc
    simp only at heq
    omega
  · intro j c w hc hw
    simp only [Table.get_set] at hc
    split at hc
    · cases hc; exact absurd hw (hfinal w)
    · exact hs.planned j c w hc hw

theorem sound_step {t : System} {e : Event} (hs : Sound s) (hg : Exclusive s e)
    (h : step s e = some t) : Sound t := by
  cases e with
  | load i publicKey =>
    simp only [step] at h
    split at h <;> cases h
    exact hs.move (le_refl _) (fun _ => rfl) (by rintro w ⟨⟩) hs.kept
  | check i =>
    simp only [step] at h
    split at h
    · next publicKey seen version hget =>
      cases h
      have hcurrent : version = s.version := by simpa [Exclusive,Current,hget] using hg
      have hseen : seen = s.file := hs.same i _ hget hcurrent
      have hversion : version ≤ s.version := hs.older i _ hget
      refine hs.move hversion (fun _ => hseen) (fun w => checked_writing) ?_
      intro k hk
      cases hphase : checked seen publicKey with
      | done result =>
        cases result with
        | none => exact hs.kept k (by simpa [hphase,recordReturn] using hk)
        | some result =>
          simp only [hphase,recordReturn,List.mem_cons] at hk
          rcases hk with rfl | hk
          · exact hseen ▸ checked_false hphase
          · exact hs.kept k hk
      | loaded | writing => exact hs.kept k (by simpa [hphase,recordReturn] using hk)
    · cases h
  | write i io =>
    simp only [step] at h
    split at h
    · next publicKey seen version written hget =>
      have hcurrent : version = s.version := by simpa [Exclusive,Current,hget] using hg
      have hversion : version ≤ s.version := hs.older i _ hget
      have hseen : version = s.version → seen = s.file := hs.same i _ hget
      cases io with
      | false =>
        cases h
        exact hs.move hversion hseen (by rintro w ⟨⟩) hs.kept
      | true =>
        cases h
        exact hs.write hget rfl hcurrent _ hversion (by rintro w ⟨⟩)
    · cases h
  | rewrite file =>
    cases h
    refine ⟨⟨by simp,hg,fun k hk => .inl hk⟩,le_refl _,?_,?_,hs.planned⟩
    · intro i call hget
      exact Nat.le_succ_of_le (hs.older i call hget)
    · intro i call hget heq
      have := hs.older i call hget
      simp only at heq
      omega

theorem sound_initial (h : (keysOf file).Nodup) : Sound (initial file) where
  kept := by simp [initial]
  nodup := h
  known := fun k hk => .inl hk
  stamped := le_refl _
  older := by simp [initial]
  same := by simp [initial]
  planned := by simp [initial]

/-- In every interleaving in which nothing is written between the load of a call and its
last step, and in which the first contents and every rewrite list no key twice, no update of
the file is lost. -/
theorem no_lost_key_update (file : File AuthorizedDevice) (events : List Event)
    (hfile : (keysOf file).Nodup) (hex : Meets step Exclusive (initial file) events) :
    Along step NoLostUpdate (initial file) events :=
  along_of_meets (fun _ hs => hs.toNoLostUpdate) (fun _ _ _ => sound_step) (sound_initial hfile) hex

/-- Two devices pair at the same time: both calls load the empty file. -/
def paired : List Event :=
  [.load 0 "phone",.load 1 "laptop",.check 0,.check 1,.write 0 true,.write 1 true]

/-- Both calls return `Ok(true)`, and the file holds the second key only. -/
theorem paired_key_is_lost :
    (exec step (initial .absent) paired).map (fun s => (s.returned,keysOf s.file)) =
      some (["laptop","phone"],["laptop"]) ∧
    ¬ Along step NoLostUpdate (initial .absent) paired := by
  have hrun : (exec step (initial .absent) paired).map (fun s => (s.returned,keysOf s.file)) =
      some (["laptop","phone"],["laptop"]) := by decide +kernel
  refine ⟨hrun,fun h => ?_⟩
  obtain ⟨s,hs,heq⟩ := Option.map_eq_some_iff.mp hrun
  simp only [Prod.mk.injEq] at heq
  have hkept := (h paired s (List.prefix_refl _) hs).kept "phone" (by simp [heq.1])
  simp [heq.2] at hkept

/-- Calls in turn around a rewrite that takes the first key away. -/
theorem turns_lose_no_key :
    let events : List Event := [.load 0 "phone",.check 0,.write 0 true,
      .rewrite (.entries [newDevice "laptop"]),.load 1 "laptop",.check 1,.load 2 "phone",.check 2,
      .write 2 true]
    (keysOf .absent).Nodup ∧ Meets step Exclusive (initial .absent) events ∧
      (exec step (initial .absent) events).map (fun s => (s.returned,keysOf s.file)) =
        some (["phone","laptop"],["laptop","phone"]) ∧
      Along step NoLostUpdate (initial .absent) events := by
  intro events
  have hfile : (keysOf .absent).Nodup := by decide
  have hex : Meets step Exclusive (initial .absent) events := by decide +kernel
  exact ⟨hfile,hex,by decide +kernel,no_lost_key_update .absent events hfile hex⟩

end Bonded.AuthorizedKeys
