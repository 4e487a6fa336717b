import Bonded.Machine
import Bonded.Text

/-! The store of paired servers on the phone: a list of records in the preferences, and the keys
of the older layout with its single record, which are read whenever the list is empty. -/
namespace Bonded.PairedServers

open Machine Text

structure PairedServerRecord where
  id : String
  publicAddress : String
  serverIdentityPublicKey : String
  supportedProtocols : List String
  peerShareEnabled : Bool
  peerShareBindAddress : String
  peerShareAdvertiseIp : String
  pairedAt : String
  deriving DecidableEq

/-- One entry of the stored array; `none` is a member that the object does not have. -/
structure Item where
  id : Option String
  publicAddress : Option String
  serverIdentityPublicKey : Option String
  serverPublicKey : Option String
  supportedProtocols : Option (List String)
  peerShareEnabled : Option Bool
  peerShareBindAddress : Option String
  peerShareAdvertiseIp : Option String
  pairedAt : Option String
  deriving DecidableEq

/-- The keys of the older layout. -/
structure Legacy where
  deviceId : Option String
  publicAddress : Option String
  serverIdentityPublicKey : Option String
  serverPublicKey : Option String
  pairedAt : Option String
  deriving DecidableEq

structure Preferences where
  records : Option (List Item)
  legacy : Legacy
  deriving DecidableEq

/-- A call, with the time at which it is made. -/
inductive Event
  | save (now : String) (record : PairedServerRecord)
  | delete (now id : String)
  | loadAll (now : String)
  deriving DecidableEq

def Event.now : Event → String
  | .save now _ | .delete now _ | .loadAll now => now

/-- The preferences, and the calls that have been made. -/
structure Store where
  preferences : Preferences
  calls : List Event
  deriving DecidableEq

/-- Nothing is stored in the layout of today. -/
def start (legacy : Legacy) : Store := ⟨⟨none,legacy⟩,[]⟩

-- `blank` is the test for white space of the Kotlin library.
variable (blank : Char → Bool)

section Store

def trim (s : String) : String := String.ofList (strip blank s.toList)

def isBlank (s : String) : Bool := s.toList.all blank

def parseRecord (now : String) (item : Item) : Option PairedServerRecord :=
  let id := trim blank (item.id.getD "")
  let publicAddress := trim blank (item.publicAddress.getD "")
  let identity := item.serverIdentityPublicKey.getD ""
  let key := if isBlank blank identity then item.serverPublicKey.getD "" else identity
  if id = "" ∨ publicAddress = "" ∨ trim blank key = "" then none
  else some ⟨id,publicAddress,trim blank key,item.supportedProtocols.getD [],
    item.peerShareEnabled.getD false,item.peerShareBindAddress.getD "",
    item.peerShareAdvertiseIp.getD "",item.pairedAt.getD now⟩

def parseRecords (now : String) (items : List Item) : List PairedServerRecord :=
  items.filterMap (parseRecord blank now)

def parseLegacySingleRecord (now : String) (legacy : Legacy) : Option PairedServerRecord :=
  let id := trim blank (legacy.deviceId.getD "")
  let publicAddress := trim blank (legacy.publicAddress.getD "")
  let identity := trim blank (legacy.serverIdentityPublicKey.getD "")
  let key := if identity = "" then trim blank (legacy.serverPublicKey.getD "") else identity
  if id = "" ∨ publicAddress = "" ∨ key = "" then none
  else some ⟨id,publicAddress,key,[],false,"","",legacy.pairedAt.getD now⟩

def toItem (r : PairedServerRecord) : Item :=
  ⟨some r.id,some r.publicAddress,some r.serverIdentityPublicKey,some r.serverIdentityPublicKey,
    some r.supportedProtocols,some r.peerShareEnabled,some r.peerShareBindAddress,
    some r.peerShareAdvertiseIp,some r.pairedAt⟩

def persist (p : Preferences) (records : List PairedServerRecord) : Preferences :=
  {p with records := some (records.map toItem)}

def loadAll (now : String) (p : Preferences) : List PairedServerRecord × Preferences :=
  let parsed := parseRecords blank now (p.records.getD [])
  if parsed ≠ [] then (parsed,p)
  else
    match parseLegacySingleRecord blank now p.legacy with
    | some legacy => ([legacy],persist p [legacy])
    | none => ([],p)

/-- The records that have neither the id nor the address. -/
def without (id publicAddress : String) (l : List PairedServerRecord) : List PairedServerRecord :=
  l.filter fun r => !(r.id == id || r.publicAddress == publicAddress)

def save (now : String) (record : PairedServerRecord) (p : Preferences) : Preferences :=
  let (loaded,q) := loadAll blank now p
  persist q (without record.id record.publicAddress loaded++[record])

def delete (now id : String) (p : Preferences) : Preferences :=
  let (loaded,q) := loadAll blank now p
  persist q (loaded.filter fun r => !(r.id == id))

def call (p : Preferences) : Event → Preferences
  | .save now record => save blank now record p
  | .delete now id => delete blank now id p
  | .loadAll now => (loadAll blank now p).2

def step (s : Store) (e : Event) : Option Store :=
  some ⟨call blank s.preferences e,s.calls++[e]⟩

end Store

section Purpose

/-- What a record is stored as: without the blanks around its three texts that have to be there. -/
def trimmed (r : PairedServerRecord) : PairedServerRecord :=
  {r with
    id := trim blank r.id
    publicAddress := trim blank r.publicAddress
    serverIdentityPublicKey := trim blank r.serverIdentityPublicKey}

/-- The list of records that a call is meant to leave. -/
def applied : Event → List PairedServerRecord → List PairedServerRecord
  | .save _ record, l =>
    without (trim blank record.id) (trim blank record.publicAddress) l++[trimmed blank record]
  | .delete _ id, l => l.filter fun r => !(r.id == id)
  | .loadAll _, l => l

/-- The call leaves the list it is meant to leave, whenever it is read next. -/
def Keeps (p : Preferences) (e : Event) : Prop :=
  ∀ now, (loadAll blank now (call blank p e)).1 = applied blank e (loadAll blank e.now p).1

/-- None of the three texts is blank. -/
def Complete (r : PairedServerRecord) : Prop :=
  trim blank r.id ≠ "" ∧ trim blank r.publicAddress ≠ "" ∧
    trim blank r.serverIdentityPublicKey ≠ ""

instance (r : PairedServerRecord) : Decidable (Complete blank r) :=
  inferInstanceAs (Decidable (_ ∧ _ ∧ _))

/-- The call puts another record in the place of `r`, or takes `r` out. -/
def Replaces (r : PairedServerRecord) : Event → Prop
  | .save _ s => trim blank s.id = trim blank r.id ∨
      trim blank s.publicAddress = trim blank r.publicAddress
  | .delete _ id => id = trim blank r.id
  | .loadAll _ => False

def SavesId (id : String) : Event → Prop
  | .save _ r => trim blank r.id = id
  | .delete _ _ | .loadAll _ => False

/-- The record was saved, and no call has replaced it. -/
def Saved (r : PairedServerRecord) (calls : List Event) : Prop :=
  Standing (fun e => ∃ now, e = .save now r) (Replaces blank r) calls

/-- The id was deleted, and no call has saved it again. -/
def Deleted (id : String) (calls : List Event) : Prop :=
  Standing (fun e => ∃ now, e = .delete now id) (SavesId blank id) calls

/-- What the store is for. -/
structure Faithful (s : Store) : Prop where
  ids : ∀ now, ((loadAll blank now s.preferences).1.map (·.id)).Nodup
  addresses : ∀ now, ((loadAll blank now s.preferences).1.map (·.publicAddress)).Nodup
  saved : ∀ r, Saved blank r s.calls → ∀ now, trimmed blank r ∈ (loadAll blank now s.preferences).1
  deleted : ∀ id, Deleted blank id s.calls →
    ∀ now, ∀ r ∈ (loadAll blank now s.preferences).1, r.id ≠ id

/-- A save is of a complete record, whose id and address meet those of a stored record as they
are written if they meet them without their blanks; a delete leaves something, or the record in
the older keys is not one that has been deleted. -/
def Sound (s : Store) : Event → Prop
  | .save now record => Complete blank record ∧ ∀ r ∈ (loadAll blank now s.preferences).1,
      r.id = trim blank record.id ∨ r.publicAddress = trim blank record.publicAddress →
        r.id = record.id ∨ r.publicAddress = record.publicAddress
  | .delete now id => (∃ r ∈ (loadAll blank now s.preferences).1, r.id ≠ id) ∨
      ∀ n x, parseLegacySingleRecord blank n s.preferences.legacy = some x →
        ¬ Deleted blank x.id (s.calls++[.delete now id])
  | .loadAll _ => True

end Purpose

section Loading

variable {blank} {p : Preferences} {r : PairedServerRecord} {now : String}
variable {l : List PairedServerRecord}

theorem trim_trim (s : String) : trim blank (trim blank s) = trim blank s := by
  simp only [trim,String.toList_ofList,strip_strip]

/-- What the store gives out is complete and has no blanks around its texts. -/
def Stored (blank : Char → Bool) (r : PairedServerRecord) : Prop :=
  trimmed blank r = r ∧ Complete blank r

theorem stored_trimmed : Stored blank (trimmed blank r) ↔ Complete blank r := by
  simp only [Stored,trimmed,Complete,trim_trim,true_and]

theorem parseRecord_stored {item : Item} (h : parseRecord blank now item = some r) :
    Stored blank r := by
  simp only [parseRecord,Option.ite_none_left_eq_some,not_or,Option.some.injEq] at h
  obtain ⟨hfull,rfl⟩ := h
  simp only [Stored,trimmed,Complete,trim_trim]
  exact ⟨trivial,hfull⟩

theorem parseLegacySingleRecord_stored {legacy : Legacy}
    (h : parseLegacySingleRecord blank now legacy = some r) : Stored blank r := by
  simp only [parseLegacySingleRecord,Option.ite_none_left_eq_some,not_or,Option.some.injEq] at h
  obtain ⟨hfull,rfl⟩ := h
  -- the key has been trimmed in either branch
  simp only [Stored,trimmed,Complete,trim_trim,apply_ite (trim blank)]
  exact ⟨trivial,hfull⟩

theorem parseLegacySingleRecord_now (now' : String) {legacy : Legacy}
    (h : parseLegacySingleRecord blank now legacy = none) :
    parseLegacySingleRecord blank now' legacy = none := by
  simp only [parseLegacySingleRecord,ite_eq_left_iff,reduceCtorEq,imp_false,not_not] at h ⊢
  exact h

/-- What a written list is read back as: incomplete records are skipped. -/
def readBack (blank : Char → Bool) (l : List PairedServerRecord) : List PairedServerRecord :=
  (l.filter (Complete blank ·)).map (trimmed blank)

theorem parseRecord_toItem : parseRecord blank now (toItem r) =
    if Complete blank r then some (trimmed blank r) else none := by
  simp only [parseRecord,toItem,Option.getD_some,trimmed,Complete]
  grind

theorem parseRecords_toItem (l : List PairedServerRecord) :
    parseRecords blank now (l.map toItem) = readBack blank l := by
  induction l with
  | nil => rfl
  | cons x l ih =>
    simp only [parseRecords,readBack,List.map_cons,List.filterMap_cons,List.filter_cons,
      parseRecord_toItem] at ih ⊢
    by_cases hx : Complete blank x <;> simp [hx,ih]

theorem readBack_stored (h : ∀ x ∈ l, Stored blank x) :
    readBack blank l = l := by
  have hall : l.filter (Complete blank ·) = l :=
    List.filter_eq_self.mpr fun x hx => decide_eq_true (h x hx).2
  rw [readBack,hall]
  exact (List.map_congr_left fun x hx => (h x hx).1).trans (List.map_id l)

theorem stored_of_mem_loadAll (h : r ∈ (loadAll blank now p).1) : Stored blank r := by
  simp only [loadAll] at h
  split at h
  · obtain ⟨item,-,hitem⟩ := List.mem_filterMap.mp h
    exact parseRecord_stored hitem
  · split at h
    · next legacy hlegacy =>
      rw [List.mem_singleton.mp h]
      exact parseLegacySingleRecord_stored hlegacy
    · cases h

theorem loadAll_legacy : (loadAll blank now p).2.legacy = p.legacy := by
  simp only [loadAll]
  split
  · rfl
  · split <;> rfl

/-- A list is read back as written, unless nothing of it is: then the older keys are read. -/
theorem loadAll_persist (l : List PairedServerRecord) :
    (loadAll blank now (persist p l)).1 = if readBack blank l = [] then
      (parseLegacySingleRecord blank now p.legacy).toList else readBack blank l := by
  simp only [loadAll,persist,Option.getD_some,parseRecords_toItem]
  by_cases hl : readBack blank l = []
  · simp only [hl,ne_eq,not_true_eq_false,if_false,if_true]
    cases parseLegacySingleRecord blank now p.legacy <;> rfl
  · simp only [hl,ne_eq,not_false_eq_true,if_true,if_false]

end Loading

section Steps

variable {blank} {p : Preferences} {r : PairedServerRecord} {now : String}
variable {l : List PairedServerRecord}

/-- The stored array has been written by the store. -/
def Written (p : Preferences) : Prop :=
  ∃ l : List PairedServerRecord, p.records.getD [] = l.map toItem

theorem written_persist : Written (persist p l) := ⟨l,rfl⟩

theorem written_loadAll (h : Written p) : Written (loadAll blank now p).2 := by
  simp only [loadAll]
  split
  · exact h
  · split
    · exact written_persist
    · exact h

theorem written_call (h : Written p) (e : Event) : Written (call blank p e) := by
  cases e with
  | save now r => exact written_persist
  | delete now id => exact written_persist
  | loadAll now => exact written_loadAll h

theorem keeps_loadAll (h : Written p) : Keeps blank p (.loadAll now) := by
  intro now'
  obtain ⟨l,hl⟩ := h
  have hread : ∀ n, parseRecords blank n (p.records.getD []) = readBack blank l := by
    intro n
    rw [hl,parseRecords_toItem]
  simp only [applied,call,Event.now]
  by_cases hne : readBack blank l = []
  · cases hlegacy : parseLegacySingleRecord blank now p.legacy with
    | none => simp [loadAll,hread,hne,hlegacy,parseLegacySingleRecord_now now' hlegacy]
    | some x =>
      have hx : readBack blank [x] = [x] :=
        readBack_stored (by simpa using parseLegacySingleRecord_stored hlegacy)
      have hnow : loadAll blank now p = ([x],persist p [x]) := by simp [loadAll,hread,hne,hlegacy]
      rw [hnow,loadAll_persist,hx,if_neg (List.cons_ne_nil x [])]
  · simp [loadAll,hread,hne]

theorem mem_without {id publicAddress : String} :
    r ∈ without id publicAddress l ↔ r ∈ l ∧ r.id ≠ id ∧ r.publicAddress ≠ publicAddress := by
  simp [without]

theorem meets_trim {x : PairedServerRecord} (hx : Stored blank x)
    (h : x.id = r.id ∨ x.publicAddress = r.publicAddress) :
    x.id = trim blank r.id ∨ x.publicAddress = trim blank r.publicAddress := by
  have hid : trim blank x.id = x.id := congrArg (·.id) hx.1
  have haddress : trim blank x.publicAddress = x.publicAddress := congrArg (·.publicAddress) hx.1
  rcases h with h | h
  · exact .inl (h ▸ hid.symm)
  · exact .inr (h ▸ haddress.symm)

/-- What is read after a save of a complete record: the source compares untrimmed texts. -/
theorem loadAll_save (hr : Complete blank r) (n : String) :
    (loadAll blank n (save blank now r p)).1 =
      without r.id r.publicAddress (loadAll blank now p).1++[trimmed blank r] := by
  have hkept : readBack blank (without r.id r.publicAddress (loadAll blank now p).1) =
      without r.id r.publicAddress (loadAll blank now p).1 :=
    readBack_stored fun x hx => stored_of_mem_loadAll (mem_without.mp hx).1
  have hback : readBack blank (without r.id r.publicAddress (loadAll blank now p).1++[r]) =
      without r.id r.publicAddress (loadAll blank now p).1++[trimmed blank r] := by
    rw [readBack,List.filter_append,List.map_append,← readBack,hkept]
    simp [hr]
  rw [save,loadAll_persist,hback,if_neg (by simp)]

theorem keeps_save (hr : Complete blank r) (h : ∀ x ∈ (loadAll blank now p).1,
    x.id = trim blank r.id ∨ x.publicAddress = trim blank r.publicAddress →
      x.id = r.id ∨ x.publicAddress = r.publicAddress) : Keeps blank p (.save now r) := by
  intro n
  rw [call,loadAll_save hr,applied,Event.now]
  congr 1
  refine List.filter_congr fun x hx => ?_
  have hiff := Iff.intro (meets_trim (r := r) (stored_of_mem_loadAll hx)) (h x hx)
  rw [Bool.eq_iff_iff]
  simpa only [Bool.not_eq_true',Bool.or_eq_false_iff,beq_eq_false_iff_ne,← not_or] using
    not_congr hiff

/-- What is read after a delete: what is left, or the record of the older keys. -/
theorem loadAll_delete (id n : String) : (loadAll blank n (delete blank now id p)).1 =
    if ((loadAll blank now p).1.filter fun x => !(x.id == id)) = [] then
      (parseLegacySingleRecord blank n p.legacy).toList
    else (loadAll blank now p).1.filter fun x => !(x.id == id) := by
  have hkept : readBack blank ((loadAll blank now p).1.filter fun x => !(x.id == id)) =
      (loadAll blank now p).1.filter fun x => !(x.id == id) :=
    readBack_stored fun x hx => stored_of_mem_loadAll (List.mem_of_mem_filter hx)
  rw [delete,loadAll_persist,hkept,loadAll_legacy]

theorem keeps_delete {id : String} (h : ∃ r ∈ (loadAll blank now p).1, r.id ≠ id) :
    Keeps blank p (.delete now id) := by
  intro n
  have hne : ¬ ((loadAll blank now p).1.filter fun x => !(x.id == id)) = [] := by
    simpa [List.filter_eq_nil_iff] using h
  rw [call,loadAll_delete,if_neg hne]
  rfl

theorem loadAll_delete_last {id : String} (h : ¬ ∃ r ∈ (loadAll blank now p).1, r.id ≠ id)
    (n : String) : (loadAll blank n (delete blank now id p)).1 =
      (parseLegacySingleRecord blank n p.legacy).toList := by
  have hnil : ((loadAll blank now p).1.filter fun x => !(x.id == id)) = [] := by
    simpa [List.filter_eq_nil_iff] using h
  rw [loadAll_delete,if_pos hnil]

end Steps

section Runs

variable {blank} {s : Store} {e : Event} {r : PairedServerRecord} {l : List PairedServerRecord}

theorem nodup_applied (e : Event) (h : (l.map (·.id)).Nodup ∧ (l.map (·.publicAddress)).Nodup) :
    ((applied blank e l).map (·.id)).Nodup ∧
      ((applied blank e l).map (·.publicAddress)).Nodup := by
  cases e with
  | loadAll => exact h
  | delete =>
    exact ⟨h.1.sublist (List.filter_sublist.map _),h.2.sublist (List.filter_sublist.map _)⟩
  | save now r =>
    have hsub : (without (trim blank r.id) (trim blank r.publicAddress) l).Sublist l :=
      List.filter_sublist
    simp only [applied,List.map_append,List.nodup_append,List.map_cons,List.map_nil,
      List.nodup_singleton,List.mem_singleton,List.mem_map,true_and]
    refine ⟨⟨h.1.sublist (hsub.map _),?_⟩,h.2.sublist (hsub.map _),?_⟩
    · rintro _ ⟨x,hx,rfl⟩ _ rfl
      exact (mem_without.mp hx).2.1
    · rintro _ ⟨x,hx,rfl⟩ _ rfl
      exact (mem_without.mp hx).2.2

theorem mem_applied (h : trimmed blank r ∈ l) (he : ¬ Replaces blank r e) :
    trimmed blank r ∈ applied blank e l := by
  cases e with
  | loadAll => exact h
  | delete now id =>
    have hid : (trimmed blank r).id ≠ id := Ne.symm he
    exact List.mem_filter.mpr ⟨h,by simpa using hid⟩
  | save now s =>
    obtain ⟨hid,haddress⟩ := not_or.mp he
    exact List.mem_append_left _ (mem_without.mpr ⟨h,Ne.symm hid,Ne.symm haddress⟩)

theorem id_ne_applied {id : String} (h : ∀ r ∈ l, r.id ≠ id)
    (he : ¬ SavesId blank id e) : ∀ r ∈ applied blank e l, r.id ≠ id := by
  intro r hr
  cases e with
  | loadAll => exact h r hr
  | delete => exact h r (List.mem_of_mem_filter hr)
  | save now s =>
    rcases List.mem_append.mp hr with hr | hr
    · exact h r (mem_without.mp hr).1
    · rw [List.mem_singleton.mp hr]
      exact he

/-- A call that keeps the list keeps what the store is for. -/
theorem Faithful.next (h : Faithful blank s) (hkeeps : Keeps blank s.preferences e) :
    Faithful blank ⟨call blank s.preferences e,s.calls++[e]⟩ := by
  have hnodup := @nodup_applied blank _ e ⟨h.ids e.now,h.addresses e.now⟩
  refine ⟨fun n => hkeeps n ▸ hnodup.1,fun n => hkeeps n ▸ hnodup.2,?_,?_⟩
  · intro r hr n
    rw [hkeeps n]
    rcases standing_snoc.mp hr with ⟨now,rfl⟩ | ⟨hr,he⟩
    · exact List.mem_append_right _ (List.mem_singleton_self _)
    · exact mem_applied (h.saved r hr _) he
  · intro id hid n
    rw [hkeeps n]
    rcases standing_snoc.mp hid with ⟨now,rfl⟩ | ⟨hid,he⟩
    · intro r hr
      simpa using (List.mem_filter.mp hr).2
    · exact id_ne_applied (h.deleted id hid _) he

theorem nodup_toList {α β : Type} (f : α → β) (o : Option α) : (o.toList.map f).Nodup := by
  cases o <;> simp

/-- The record of the older keys comes back when the last record is deleted. -/
theorem Faithful.last {now id : String} (h : Faithful blank s)
    (hlast : ¬ ∃ r ∈ (loadAll blank now s.preferences).1, r.id ≠ id)
    (hlegacy : ∀ n x, parseLegacySingleRecord blank n s.preferences.legacy = some x →
      ¬ Deleted blank x.id (s.calls++[.delete now id])) :
    Faithful blank ⟨delete blank now id s.preferences,s.calls++[.delete now id]⟩ := by
  have hload := loadAll_delete_last hlast
  refine ⟨fun n => ?_,fun n => ?_,fun r hr n => ?_,fun id' hid n r hr heq => ?_⟩
  · rw [hload]
    exact nodup_toList _ _
  · rw [hload]
    exact nodup_toList _ _
  · -- a saved record that this call does not delete would have been left
    rcases standing_snoc.mp hr with ⟨_,⟨⟩⟩ | ⟨hr,he⟩
    exact absurd ⟨_,h.saved r hr now,fun heq => he heq.symm⟩ hlast
  · rw [hload] at hr
    exact hlegacy n r (Option.mem_toList.mp hr) (heq ▸ hid)

theorem faithful_start (legacy : Legacy) : Faithful blank (start legacy) := by
  have hload : ∀ n, (loadAll blank n (start legacy).preferences).1 =
      (parseLegacySingleRecord blank n legacy).toList := by
    intro n
    simp only [loadAll,start,parseRecords,Option.getD_none,List.filterMap_nil,ne_eq,
      not_true_eq_false,if_false]
    cases parseLegacySingleRecord blank n legacy <;> rfl
  refine ⟨fun n => ?_,fun n => ?_,fun r hr => absurd hr not_standing_nil,
    fun id hid => absurd hid not_standing_nil⟩
  · rw [hload]
    exact nodup_toList _ _
  · rw [hload]
    exact nodup_toList _ _

theorem faithful_of_sound (h : Faithful blank s) (hw : Written s.preferences)
    (he : Sound blank s e) : Faithful blank ⟨call blank s.preferences e,s.calls++[e]⟩ := by
  cases e with
  | save now r => exact h.next (keeps_save he.1 he.2)
  | loadAll now => exact h.next (keeps_loadAll hw)
  | delete now id =>
    by_cases hleft : ∃ r ∈ (loadAll blank now s.preferences).1, r.id ≠ id
    · exact h.next (keeps_delete hleft)
    · exact h.last hleft (he.resolve_left hleft)

/-- A call that does not meet the condition leaves a store that is not what it is for. -/
theorem sound_of_faithful (h : Faithful blank ⟨call blank s.preferences e,s.calls++[e]⟩) :
    Sound blank s e := by
  cases e with
  | loadAll => trivial
  | save now r =>
    have hr : Complete blank r := by
      refine stored_trimmed.mp (stored_of_mem_loadAll (h.saved r ?_ now))
      exact standing_snoc.mpr (.inl ⟨now,rfl⟩)
    refine ⟨hr,fun x hx hmeets => ?_⟩
    have hids := h.ids now
    have haddresses := h.addresses now
    rw [call,loadAll_save hr,List.map_append,List.nodup_append] at hids haddresses
    by_contra hnot
    have hkept : x ∈ without r.id r.publicAddress (loadAll blank now s.preferences).1 :=
      mem_without.mpr ⟨hx,not_or.mp hnot⟩
    rcases hmeets with heq | heq
    · exact hids.2.2 _ (List.mem_map_of_mem hkept) _ (List.mem_singleton_self _) heq
    · exact haddresses.2.2 _ (List.mem_map_of_mem hkept) _ (List.mem_singleton_self _) heq
  | delete now id =>
    refine or_iff_not_imp_left.mpr fun hleft n x hx hdeleted => ?_
    refine h.deleted x.id hdeleted n x ?_ rfl
    rw [call,loadAll_delete_last hleft]
    exact Option.mem_toList.mpr hx

variable (blank)

/-- The store is what it is for, after every sequence of calls, exactly if each call is of a
complete record that meets the stored ones as written, or a delete that does not bring a deleted
record back from the older keys. -/
theorem store_faithful_iff (legacy : Legacy) (es : List Event) :
    Along (step blank) (Faithful blank) (start legacy) es ↔
      Meets (step blank) (Sound blank) (start legacy) es := by
  refine along_iff_meets (I := fun s => Faithful blank s ∧ Written s.preferences) (fun _ h => h.1)
    ?_ ?_ ⟨faithful_start legacy,[],rfl⟩
  · rintro s e t ⟨h,hw⟩ he hstep
    cases hstep
    exact ⟨faithful_of_sound h hw he,written_call hw e⟩
  · intro s e _ he
    exact ⟨_,rfl,fun h => he (sound_of_faithful h)⟩

/-- A phone that was paired before the layout of today. -/
def oldKeys : Legacy := ⟨some "phone",some "192.0.2.1:443",none,some "key",some "2024"⟩

def phoneRecord : PairedServerRecord := ⟨"phone","192.0.2.1:443","key",[],false,"","","2024"⟩

/-- The record of the older keys is there again after it has been deleted; and two records are
given out with one id, since it was saved with a blank the second time. -/
theorem deleted_record_returns :
    let blank := fun c : Char => c == ' '
    let deletion := Event.delete "2025" "phone"
    let again := {phoneRecord with id := "phone ",publicAddress := "192.0.2.2:443"}
    (loadAll blank "2026" (call blank (start oldKeys).preferences deletion)).1 = [phoneRecord] ∧
      ¬ Along (step blank) (Faithful blank) (start oldKeys) [deletion] ∧
      ¬ Along (step blank) (Faithful blank) (start ⟨none,none,none,none,none⟩)
        [.save "2025" phoneRecord,.save "2026" again] := by
  intro blank deletion again
  have hback : (loadAll blank "2026" (call blank (start oldKeys).preferences deletion)).1 =
      [phoneRecord] := by decide +kernel
  refine ⟨hback,fun h => ?_,fun h => ?_⟩
  · have hfaithful := h [deletion] _ (List.prefix_refl _) rfl
    refine hfaithful.deleted "phone" ⟨[],_,[],rfl,⟨_,rfl⟩,by simp⟩ "2026" phoneRecord ?_ rfl
    rw [hback]
    exact List.mem_singleton_self _
  · have hids := (h _ _ (List.prefix_refl _) rfl).ids "2026"
    revert hids
    decide +kernel

end Runs

end Bonded.PairedServers
