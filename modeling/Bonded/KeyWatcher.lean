import Bonded.AuthorizedKeys

/-! The in-memory key set against the authorized-keys file. A reload reads the file and then
swaps the map, in two steps; the watcher reloads for the events of the file system, unless
the last reload it began is less than 200 ms old, and handshakes reload on their own. -/
namespace Bonded.KeyWatcher

open Auth Machine AuthorizedKeys

inductive AccessMode
  | any
  | execute
  | read
  | write
  | other
  deriving DecidableEq, Repr

inductive AccessKind
  | any
  | read
  | opened (mode : AccessMode)
  | close (mode : AccessMode)
  | other
  deriving DecidableEq, Repr

inductive ModifyKind
  | any
  | data
  | metadata
  | name
  | other
  deriving DecidableEq, Repr

inductive EventKind
  | any
  | access (kind : AccessKind)
  | create
  | modify (kind : ModifyKind)
  | remove
  | other
  deriving DecidableEq, Repr

def shouldReloadForEventKind : EventKind → Bool
  | .create | .remove => true
  | .modify .any | .modify .data | .modify .name => true
  | .access (.close .write) => true
  | _ => false

/-- An event is dropped when the last reload began less than 200 ms before it. -/
def shouldSkip (lastReloadAt : Option ℕ) (now : ℕ) : Bool :=
  match lastReloadAt with
  | some last => now-last < 200
  | none => false

/-- A reload between its read and its swap, with the version of the file that it has read. -/
structure Reload where
  devices : Table String AuthorizedDevice
  version : ℕ
  deriving DecidableEq

/-- The store, the watcher and the reloads under way (`none` is the watcher's, `some i` a
handshake's). The versions count the writes of the file: `version` is the last one,
`readAt` the last one that a reload has read, and `devicesAt` the one in the map. `owed`
says that a write still waits for its event. -/
structure System where
  file : File AuthorizedDevice
  devices : Table String AuthorizedDevice
  lastReloadAt : Option ℕ
  due : Bool
  reloads : Table (Option ℕ) Reload
  owed : Bool
  version : ℕ
  readAt : ℕ
  devicesAt : ℕ
  deriving DecidableEq

inductive Event
  | write (file : File AuthorizedDevice)
  | notify (event : Option EventKind) (now : ℕ)
  | read (who : Option ℕ)
  | swap (who : Option ℕ)
  deriving DecidableEq

def initial (file : File AuthorizedDevice) (devices : Table String AuthorizedDevice) : System :=
  ⟨file,devices,none,false,∅,false,0,0,0⟩

/-- The watcher's callback for an event at a time; `none` is an error of the watcher. -/
def callback (s : System) (event : Option EventKind) (now : ℕ) : System :=
  match event with
  | none => s
  | some kind =>
    if shouldReloadForEventKind kind then
      if shouldSkip s.lastReloadAt now then {s with owed := false}
      else {s with owed := false, lastReloadAt := some now, due := true}
    else s

/-- The first half of `reload`; a file that does not load ends it. -/
def reloadRead (s : System) (who : Option ℕ) : System :=
  match loadDevicesMap s.file with
  | none => s
  | some devices =>
    {s with reloads := s.reloads.set who ⟨devices,s.version⟩, readAt := s.version}

/-- One step. The watcher's callback runs to its end before the next event is handled. -/
def step (s : System) : Event → Option System
  | .write file => some {s with file := file, owed := true, version := s.version+1}
  | .notify event now =>
    if s.due ∨ s.reloads.contains none then none else some (callback s event now)
  | .read who =>
    if s.reloads.contains who then none
    else
      match who with
      | none => if s.due then some (reloadRead {s with due := false} none) else none
      | some i => some (reloadRead s (some i))
  | .swap who =>
    match s.reloads.get who with
    | none => none
    | some r => some {s with
        devices := r.devices
        devicesAt := r.version
        reloads := s.reloads.remove who}

/-- Every write was followed by its event, every event was handled, every reload is over. -/
def Quiescent (s : System) : Prop :=
  s.owed = false ∧ s.due = false ∧ ∀ who, s.reloads.get who = none

/-- At rest the key set is the keys of the file. -/
def Converged (s : System) : Prop :=
  Quiescent s → ∀ k, isAuthorized s.devices k = true ↔ k ∈ keysOf s.file

/-- What is written is well formed; no event is dropped that is the first one after contents
that no reload has read; and no reload puts older contents in place of newer ones. -/
def Orderly (s : System) : Event → Prop
  | .write file => (loadDevicesMap file).isSome = true
  | .notify (some kind) now => shouldReloadForEventKind kind = true →
    shouldSkip s.lastReloadAt now = true → s.readAt = s.version
  | .notify none _ => True
  | .read _ => True
  | .swap who =>
    match s.reloads.get who with
    | none => True
    | some r => s.devicesAt ≤ r.version

instance (s : System) (e : Event) : Decidable (Orderly s e) := by
  unfold Orderly
  split <;> first | infer_instance | (split <;> infer_instance)

/-- Which version of the file each map belongs to, and who will read the last one. -/
structure Tracked (s : System) : Prop where
  wellFormed : (loadDevicesMap s.file).isSome = true
  readLe : s.readAt ≤ s.version
  inPlace : s.devicesAt ≤ s.version ∧
    (s.devicesAt = s.version → loadDevicesMap s.file = some s.devices)
  underWay : ∀ who r, s.reloads.get who = some r → r.version ≤ s.version ∧
    (r.version = s.version → loadDevicesMap s.file = some r.devices)
  covered : s.readAt = s.version →
    s.devicesAt = s.version ∨ ∃ who r, s.reloads.get who = some r ∧ r.version = s.version
  awaited : s.readAt ≠ s.version → s.owed = true ∨ s.due = true

theorem Tracked.callback {s : System} {kind : EventKind} {now : ℕ} (hs : Tracked s)
    (hg : shouldReloadForEventKind kind = true → shouldSkip s.lastReloadAt now = true →
      s.readAt = s.version) : Tracked (callback s (some kind) now) := by
  unfold KeyWatcher.callback
  dsimp only
  split
  · next hkind =>
    split
    · next hskip =>
      exact ⟨hs.wellFormed,hs.readLe,hs.inPlace,hs.underWay,hs.covered,
        fun hne => absurd (hg hkind hskip) hne⟩
    · exact ⟨hs.wellFormed,hs.readLe,hs.inPlace,hs.underWay,hs.covered,fun _ => .inr rfl⟩
  · exact hs

theorem Tracked.reloadRead {s : System} {who : Option ℕ} (hs : Tracked s) (due : Bool) :
    Tracked (reloadRead {s with due := due} who) := by
  obtain ⟨devices,hload⟩ := Option.isSome_iff_exists.mp hs.wellFormed
  simp only [KeyWatcher.reloadRead,hload]
  refine ⟨hs.wellFormed,le_refl _,hs.inPlace,?_,fun _ => ?_,fun hne => absurd rfl hne⟩
  · intro who' r hget
    rw [Table.get_set] at hget
    split at hget
    · cases hget; exact ⟨le_refl _,fun _ => hload⟩
    · exact hs.underWay who' r hget
  · exact .inr ⟨who,⟨devices,s.version⟩,Table.get_set_self _ _ _,rfl⟩

theorem Tracked.swap {s : System} {who : Option ℕ} {r : Reload} (hs : Tracked s)
    (hget : s.reloads.get who = some r) (hnewer : s.devicesAt ≤ r.version) :
    Tracked {s with
      devices := r.devices, devicesAt := r.version, reloads := s.reloads.remove who} := by
  have hr := hs.underWay who r hget
  refine ⟨hs.wellFormed,hs.readLe,hr,?_,fun hread => ?_,hs.awaited⟩
  · intro who' r' hget'
    rw [Table.get_remove] at hget'
    split at hget'
    · cases hget'
    · exact hs.underWay who' r' hget'
  · rcases hs.covered hread with hdev | ⟨who',r',hget',hr'⟩
    · exact .inl (le_antisymm hr.1 (hdev ▸ hnewer))
    · by_cases hwho : who' = who
      · subst hwho
        rw [hget] at hget'
        cases hget'
        exact .inl hr'
      · exact .inr ⟨who',r',(Table.get_remove_ne hwho).trans hget',hr'⟩

theorem tracked_step {s t : System} {e : Event} (hs : Tracked s) (hg : Orderly s e)
    (h : step s e = some t) : Tracked t := by
  cases e with
  | write file =>
    cases h
    have hread := hs.readLe
    have hplace := hs.inPlace.1
    refine ⟨hg,?_,⟨?_,?_⟩,fun who r hget => ⟨?_,?_⟩,?_,fun _ => .inl rfl⟩
    · exact Nat.le_succ_of_le hread
    · exact Nat.le_succ_of_le hplace
    · intro heq; simp only at heq; omega
    · exact Nat.le_succ_of_le (hs.underWay who r hget).1
    · intro heq
      have := (hs.underWay who r hget).1
      simp only at heq
      omega
    · intro heq; simp only at heq; omega
  | notify event now =>
    simp only [step] at h
    split at h <;> cases h
    cases event with
    | none => exact hs
    | some kind => exact hs.callback hg
  | read who =>
    simp only [step] at h
    split at h
    · cases h
    · cases who with
      | none => dsimp only at h; split at h <;> cases h; exact hs.reloadRead false
      | some i => cases h; exact hs.reloadRead s.due
  | swap who =>
    simp only [step] at h
    split at h
    · cases h
    · next r hget =>
      cases h
      exact hs.swap hget (by simpa only [Orderly,hget] using hg)

theorem Tracked.converged {s : System} (hs : Tracked s) : Converged s := by
  rintro ⟨howed,hdue,hreloads⟩ k
  have hread : s.readAt = s.version := by
    by_contra hne
    simpa [howed,hdue] using hs.awaited hne
  rcases hs.covered hread with hdev | ⟨who,r,hget,-⟩
  · have hload := hs.inPlace.2 hdev
    obtain ⟨devices,hfile,hmap⟩ := Option.map_eq_some_iff.mp hload
    rw [← hmap,isAuthorized_devicesMap,keysOf_load hfile,List.mem_map]
  · rw [hreloads who] at hget
    cases hget

/-- In every run in which well-formed contents are written, no event is dropped while
contents are unread, and no reload overwrites the map of a later one, the key set at rest is
the keys of the file. -/
theorem revocation_converges (file : File AuthorizedDevice)
    (devices : Table String AuthorizedDevice) (hload : loadDevicesMap file = some devices)
    (events : List Event) (horder : Meets step Orderly (initial file devices) events) :
    Along step Converged (initial file devices) events := by
  have hinit : Tracked (initial file devices) :=
    ⟨by simp [initial,hload],le_refl _,⟨le_refl _,fun _ => hload⟩,by simp [initial],
      fun _ => .inl rfl,fun hne => absurd rfl hne⟩
  exact along_of_meets (fun _ hs => hs.converged) (fun _ _ _ => tracked_step) hinit horder

/-- An edit adds a device, and an edit 100 ms later takes the phone away. -/
def revoked : List Event :=
  [.write (.entries [newDevice "phone",newDevice "laptop"]),
    .notify (some (.access (.close .write))) 1000,.read none,.swap none,
    .write (.entries [newDevice "laptop"]),.notify (some (.access (.close .write))) 1100]

/-- The event of the second edit is dropped, nothing else is to come, and the phone is still
accepted. -/
theorem revoked_key_stays_authorized :
    let start := initial (.entries [newDevice "phone"]) (devicesMap [newDevice "phone"])
    (exec step start revoked).map (fun s => (isAuthorized s.devices "phone",keysOf s.file)) =
      some (true,["laptop"]) ∧ ¬ Along step Converged start revoked := by
  intro start
  have hrun : (exec step start revoked).map (fun s => (s.owed,s.due,s.reloads.size,
      isAuthorized s.devices "phone",keysOf s.file)) = some (false,false,0,true,["laptop"]) := by
    decide +kernel
  refine ⟨by decide +kernel,fun h => ?_⟩
  obtain ⟨s,hs,heq⟩ := Option.map_eq_some_iff.mp hrun
  simp only [Prod.mk.injEq] at heq
  obtain ⟨howed,hdue,hreloads,hphone,hkeys⟩ := heq
  have hconv := h revoked s (List.prefix_refl _) hs ⟨howed,hdue,Table.get_of_size_zero hreloads⟩ "phone"
  simp [hphone,hkeys] at hconv

/-- With 300 ms between the edits, and a handshake that reloads in between, the phone is out. -/
theorem spaced_revocation_converges :
    let start := initial (.entries [newDevice "phone"]) (devicesMap [newDevice "phone"])
    let events : List Event := [.write (.entries [newDevice "phone",newDevice "laptop"]),
      .read (some 7),.notify (some (.access (.close .write))) 1000,.swap (some 7),.read none,
      .swap none,.write (.entries [newDevice "laptop"]),
      .notify (some (.access (.close .write))) 1300,.read none,.swap none]
    Meets step Orderly start events ∧ Along step Converged start events ∧
      (exec step start events).map (fun s => isAuthorized s.devices "phone") = some false := by
  intro start events
  have horder : Meets step Orderly start events := by decide +kernel
  exact ⟨horder,revocation_converges _ _ rfl events horder,by decide +kernel⟩

end Bonded.KeyWatcher
