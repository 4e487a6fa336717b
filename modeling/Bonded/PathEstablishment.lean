import Bonded.ClientBootstrap
import Mathlib.Data.List.Rotate
import Mathlib.Data.Nat.ModEq

/-! The establishment of transport paths: for each path the protocols of the sanitized list are
tried in turn, from a place that moves on with every path, until one of them connects. -/
namespace Bonded.PathEstablishment

open ClientBootstrap

section Code

/-- The transport that a protocol name stands for. -/
inductive Kind
  | naiveTcp
  | webSocket
  | quic
  | wireGuard
  deriving DecidableEq, Repr

def kindOf (protocol : String) : Option Kind :=
  if protocol = "naive_tcp" then some .naiveTcp
  else if protocol = "wss" ∨ protocol = "websocket_tls" then some .webSocket
  else if protocol = "h3" ∨ protocol = "quic" then some .quic
  else if protocol = "wireguard" ∨ protocol = "wg" then some .wireGuard
  else none

def defaultProtocols : List String := ["wss","h3","wireguard"]

def sanitizePreferredProtocols (protocols : List String) (allowInsecureDebugTransports : Bool) :
    List String :=
  let source := if protocols = [] then defaultProtocols else protocols
  let filtered := source.filter fun protocol =>
    allowInsecureDebugTransports || !eqIgnoreAsciiCase protocol "naive_tcp"
  if filtered = [] then defaultProtocols else filtered

def rotatedProtocols (protocols : List String) (start : ℕ) : List String :=
  (List.range protocols.length).map fun offset =>
    protocols.getD ((start+offset)%protocols.length) ""

variable {τ : Type}

/-- An attempt: the path, the place of the entry in the sanitized list, the entry and the bind
address. -/
structure Attempt where
  path : ℕ
  position : ℕ
  protocol : String
  bind : Option String
  deriving DecidableEq, Repr

/-- How the attempts for a path went: those made, by their place in the rotated list, the errors,
and the transport. -/
structure Tried (τ : Type) where
  made : List (String × ℕ)
  errors : List String
  connected : Option (Kind × τ)

def bindContext : Option String → String
  | some bind => ", bind_address="++bind
  | none => ""

def errorText (protocol : String) (path : ℕ) (bind : Option String) (err : String) : String :=
  "protocol="++protocol++", path_index="++toString path++bindContext bind++": "++err

/-- The entries from one place on; `oracle` gives the transport or the error of the attempt at a
place. -/
def tryProtocols (oracle : ℕ → Except String τ) (path : ℕ) (bind : Option String) :
    List String → ℕ → Tried τ
  | [], _ => ⟨[],[],none⟩
  | protocol::rest, offset =>
    match kindOf protocol with
    | none => tryProtocols oracle path bind rest (offset+1)
    | some kind =>
      match oracle offset with
      | .ok transport => ⟨[(protocol,offset)],[],some (kind,transport)⟩
      | .error err =>
        let later := tryProtocols oracle path bind rest (offset+1)
        ⟨(protocol,offset)::later.made,errorText protocol path bind err::later.errors,
          later.connected⟩

def reasonOf (errors : List String) : String :=
  if errors = [] then "no matching protocols configured" else String.intercalate " | " errors

/-- What the call comes to; a panic is no error. -/
inductive Result (τ : Type)
  | panicked
  | failed (message : String)
  | established (paths : List (Kind × τ))
  deriving DecidableEq, Repr

/-- The attempts for a path with their places in the sanitized list. -/
def attemptsOf (protocols : List String) (bind : Option String) (path : ℕ)
    (made : List (String × ℕ)) : List Attempt :=
  made.map fun e => ⟨path,(path+e.2)%protocols.length,e.1,bind⟩

/-- The paths from one index on; the first path that cannot be established ends the loop, with
an error if it is the first of all. -/
def establishFrom (oracle : ℕ → ℕ → Except String τ) (protocols binds : List String) :
    ℕ → ℕ → List (Kind × τ) → Result τ × List Attempt
  | 0, _, paths => (.established paths,[])
  | remaining+1, path, paths =>
    let bind := binds[path]?
    let tried := tryProtocols (oracle path) path bind (rotatedProtocols protocols path) 0
    let attempts := attemptsOf protocols bind path tried.made
    match tried.connected with
    | some transport =>
      let later := establishFrom oracle protocols binds remaining (path+1) (paths++[transport])
      (later.1,attempts++later.2)
    | none =>
      if path = 0 then
        (.failed ("failed to establish path 0 with configured protocols: "++
          reasonOf tried.errors),attempts)
      else (.established paths,attempts)

/-- The size of an established path in memory and the largest size of an allocation. -/
structure Layout where
  pathSize : ℕ
  isizeMax : ℕ
  deriving DecidableEq, Repr

/-- The list of paths is allocated at its full length at once, which panics if that is too
long. -/
def establishTransportPaths (layout : Layout) (oracle : ℕ → ℕ → Except String τ)
    (preferred : List String) (allowInsecure : Bool) (count : ℕ) (binds : List String) :
    Result τ × List Attempt :=
  let protocols := sanitizePreferredProtocols preferred allowInsecure
  let target := max count 1
  if layout.isizeMax < target*layout.pathSize then (.panicked,[])
  else establishFrom oracle protocols binds target 0 []

end Code

section Order

variable {τ : Type}

/-- The entries of a list up to the first one that satisfies a predicate, with it. -/
def takeThrough {α : Type} (p : α → Bool) : List α → List α
  | [] => []
  | x::xs => if p x then [x] else x::takeThrough p xs

/-- The recognised entries in cyclic order from the place of the path on, with their distance
from it. -/
def candidates (protocols : List String) (path : ℕ) : List (String × ℕ) :=
  (protocols.rotate path).zipIdx.filter fun e => (kindOf e.1).isSome

def connects (oracle : ℕ → ℕ → Except String τ) (path : ℕ) (e : String × ℕ) : Option (Kind × τ) :=
  match kindOf e.1, oracle path e.2 with
  | some kind, .ok transport => some (kind,transport)
  | _, _ => none

def firstSuccess (oracle : ℕ → ℕ → Except String τ) (protocols : List String) (path : ℕ) :
    Option (Kind × τ) :=
  (candidates protocols path).findSome? (connects oracle path)

/-- The entries that are tried for a path: in order up to the first success. -/
def triedEntries (oracle : ℕ → ℕ → Except String τ) (protocols : List String) (path : ℕ) :
    List (String × ℕ) :=
  takeThrough (fun e => (connects oracle path e).isSome) (candidates protocols path)

def attempts (oracle : ℕ → ℕ → Except String τ) (protocols binds : List String) (path : ℕ) :
    List Attempt :=
  (triedEntries oracle protocols path).map fun e =>
    ⟨path,(path+e.2)%protocols.length,e.1,binds[path]?⟩

def failure (oracle : ℕ → ℕ → Except String τ) (path : ℕ) (bind : Option String)
    (e : String × ℕ) : Option String :=
  match oracle path e.2 with
  | .ok _ => none
  | .error err => some (errorText e.1 path bind err)

/-- The error of the call: the reasons of every attempt for the first path. -/
def failedText (oracle : ℕ → ℕ → Except String τ) (protocols binds : List String) : String :=
  "failed to establish path 0 with configured protocols: "++
    reasonOf ((triedEntries oracle protocols 0).filterMap (failure oracle 0 binds[0]?))

/-- The first path with no success, among some from one index on. -/
def firstFailed (oracle : ℕ → ℕ → Except String τ) (protocols : List String)
    (path remaining : ℕ) : ℕ :=
  ((List.range' path remaining).find? fun i => (firstSuccess oracle protocols i).isNone).getD
    (path+remaining)

theorem rotatedProtocols_eq (protocols : List String) (start : ℕ) :
    rotatedProtocols protocols start = protocols.rotate start := by
  refine List.ext_getElem (by simp [rotatedProtocols]) fun n hn hn' => ?_
  have hlen : n < protocols.length := by simpa [rotatedProtocols] using hn
  have hmod : (start+n)%protocols.length < protocols.length :=
    Nat.mod_lt _ (Nat.zero_lt_of_lt hlen)
  rw [List.getElem_rotate]
  simp only [rotatedProtocols,List.getElem_map,List.getElem_range,Nat.add_comm start n] at hmod ⊢
  rw [List.getD_eq_getElem?_getD,List.getElem?_eq_getElem hmod]
  rfl

/-- The attempts at the entries from one place on are those of the recognised ones up to the
first success. -/
theorem tryProtocols_spec (oracle : ℕ → ℕ → Except String τ) (path : ℕ) (bind : Option String)
    (entries : List String) (offset : ℕ) :
    let tried := tryProtocols (oracle path) path bind entries offset
    let recognised := (entries.zipIdx offset).filter fun e => (kindOf e.1).isSome
    tried.made = takeThrough (fun e => (connects oracle path e).isSome) recognised ∧
      tried.connected = recognised.findSome? (connects oracle path) ∧
      tried.errors = tried.made.filterMap (failure oracle path bind) := by
  induction entries generalizing offset with
  | nil => exact ⟨rfl,rfl,rfl⟩
  | cons protocol rest ih =>
    obtain ⟨hmade,hconnected,herrors⟩ := ih (offset+1)
    cases hkind : kindOf protocol with
    | none =>
      simpa [tryProtocols,hkind,List.zipIdx_cons] using ⟨hmade,hconnected,herrors⟩
    | some kind =>
      cases horacle : oracle path offset with
      | ok transport =>
        have hconnects : connects oracle path (protocol,offset) = some (kind,transport) := by
          simp only [connects,hkind,horacle]
        simp [tryProtocols,hkind,horacle,List.zipIdx_cons,takeThrough,hconnects,failure]
      | error err =>
        have hconnects : connects oracle path (protocol,offset) = none := by
          simp only [connects,hkind,horacle]
        have hfailure : failure oracle path bind (protocol,offset) =
            some (errorText protocol path bind err) := by
          simp only [failure,horacle]
        refine ⟨?_,?_,?_⟩
        · simp [tryProtocols,hkind,horacle,List.zipIdx_cons,takeThrough,hconnects,hmade]
        · simp [tryProtocols,hkind,horacle,List.zipIdx_cons,hconnects,hconnected]
        · simp [tryProtocols,hkind,horacle,herrors,hfailure]

theorem tryPath_spec (oracle : ℕ → ℕ → Except String τ) (protocols binds : List String) (path : ℕ) :
    let tried := tryProtocols (oracle path) path binds[path]? (rotatedProtocols protocols path) 0
    attemptsOf protocols binds[path]? path tried.made = attempts oracle protocols binds path ∧
      tried.connected = firstSuccess oracle protocols path ∧
      tried.errors =
        (triedEntries oracle protocols path).filterMap (failure oracle path binds[path]?) := by
  rw [rotatedProtocols_eq]
  obtain ⟨hmade,hconnected,herrors⟩ :=
    tryProtocols_spec oracle path binds[path]? (protocols.rotate path) 0
  refine ⟨?_,hconnected,?_⟩
  · rw [hmade]
    rfl
  · rw [herrors,hmade]
    rfl

theorem firstFailed_zero (oracle : ℕ → ℕ → Except String τ) (protocols : List String) (path : ℕ) :
    firstFailed oracle protocols path 0 = path := rfl

variable {oracle : ℕ → ℕ → Except String τ} {path : ℕ} {protocols : List String}
  {transport : Kind × τ}

theorem firstFailed_none (h : firstSuccess oracle protocols path = none) (remaining : ℕ) :
    firstFailed oracle protocols path (remaining+1) = path := by
  simp [firstFailed,List.range'_succ,h]

theorem firstFailed_some (h : firstSuccess oracle protocols path = some transport) (remaining : ℕ) :
    firstFailed oracle protocols path (remaining+1) =
      firstFailed oracle protocols (path+1) remaining := by
  simp [firstFailed,List.range'_succ,h,Nat.add_assoc,Nat.add_comm 1]

theorem le_firstFailed (oracle : ℕ → ℕ → Except String τ) (protocols : List String)
    (path remaining : ℕ) : path ≤ firstFailed oracle protocols path remaining := by
  induction remaining generalizing path with
  | zero => exact le_refl path
  | succ remaining ih =>
    cases h : firstSuccess oracle protocols path with
    | none => rw [firstFailed_none h]
    | some transport =>
      rw [firstFailed_some h]
      exact (Nat.le_succ path).trans (ih (path+1))

/-- The paths that are established: those before the first that fails. -/
def wonPaths (oracle : ℕ → ℕ → Except String τ) (protocols : List String) (path remaining : ℕ) :
    List ℕ :=
  List.range' path (firstFailed oracle protocols path remaining-path)

/-- The paths that are tried: those and the first that fails, if there is one. -/
def triedPaths (oracle : ℕ → ℕ → Except String τ) (protocols : List String)
    (path remaining : ℕ) : List ℕ :=
  List.range' path (min (firstFailed oracle protocols path remaining+1) (path+remaining)-path)

theorem wonPaths_none (h : firstSuccess oracle protocols path = none) (remaining : ℕ) :
    wonPaths oracle protocols path (remaining+1) = [] := by
  simp [wonPaths,firstFailed_none h]

theorem wonPaths_some (h : firstSuccess oracle protocols path = some transport) (remaining : ℕ) :
    wonPaths oracle protocols path (remaining+1) =
      path::wonPaths oracle protocols (path+1) remaining := by
  have hle := le_firstFailed oracle protocols (path+1) remaining
  rw [wonPaths,firstFailed_some h,wonPaths,← List.range'_succ]
  congr 1
  omega

theorem triedPaths_none (h : firstSuccess oracle protocols path = none) (remaining : ℕ) :
    triedPaths oracle protocols path (remaining+1) = [path] := by
  have hone : min (path+1) (path+(remaining+1))-path = 1 := by omega
  rw [triedPaths,firstFailed_none h,hone]
  rfl

theorem triedPaths_some (h : firstSuccess oracle protocols path = some transport) (remaining : ℕ) :
    triedPaths oracle protocols path (remaining+1) =
      path::triedPaths oracle protocols (path+1) remaining := by
  have hle := le_firstFailed oracle protocols (path+1) remaining
  rw [triedPaths,firstFailed_some h,triedPaths,← List.range'_succ]
  congr 1
  omega

/-- The transports of the paths that are established. -/
def won (oracle : ℕ → ℕ → Except String τ) (protocols : List String) (path remaining : ℕ) :
    List (Kind × τ) :=
  (wonPaths oracle protocols path remaining).filterMap (firstSuccess oracle protocols)

def allAttempts (oracle : ℕ → ℕ → Except String τ) (protocols binds : List String)
    (path remaining : ℕ) : List Attempt :=
  (triedPaths oracle protocols path remaining).flatMap (attempts oracle protocols binds)

/-- The loop over the paths. Its result is an error only where it begins at the first path of
all and that one fails. -/
theorem establishFrom_spec (oracle : ℕ → ℕ → Except String τ) (protocols binds : List String)
    (remaining path : ℕ) (paths : List (Kind × τ)) :
    establishFrom oracle protocols binds remaining path paths =
      (if path = 0 ∧ 0 < remaining ∧ firstSuccess oracle protocols path = none
          then .failed (failedText oracle protocols binds)
          else .established (paths++won oracle protocols path remaining),
        allAttempts oracle protocols binds path remaining) := by
  induction remaining generalizing path paths with
  | zero => simp [establishFrom,won,wonPaths,allAttempts,triedPaths,firstFailed_zero]
  | succ remaining ih =>
    obtain ⟨hmade,hconnected,herrors⟩ := tryPath_spec oracle protocols binds path
    cases hsuccess : firstSuccess oracle protocols path with
    | none =>
      rw [hsuccess] at hconnected
      simp only [establishFrom,hmade,hconnected,herrors,won,wonPaths_none hsuccess,allAttempts,
        triedPaths_none hsuccess,List.filterMap_nil,List.append_nil,List.flatMap_singleton,
        Nat.zero_lt_succ,and_true]
      split
      · next hzero =>
        subst hzero
        rfl
      · rfl
    | some transport =>
      have hlater := ih (path+1) (paths++[transport])
      simp [establishFrom,hmade,hconnected,hlater,won,wonPaths_some hsuccess,allAttempts,
        triedPaths_some hsuccess,hsuccess]

end Order

section Claims

variable {τ : Type}

/-- What the order of establishment is to be, for the sanitized list and the number of paths. -/
structure Orderly (oracle : ℕ → ℕ → Except String τ) (protocols binds : List String)
    (target : ℕ) (allowInsecure : Bool) (run : Result τ × List Attempt) : Prop where
  /-- The call fails if the first path has no success; otherwise it returns the first success of
  every path before the first one without any. -/
  result : run.1 = if firstSuccess oracle protocols 0 = none
    then .failed (failedText oracle protocols binds)
    else .established (((List.range (firstFailed oracle protocols 0 target)).filterMap
      (firstSuccess oracle protocols)))
  /-- Every path up to the first one without success is tried, in the cyclic order of its
  entries up to the first success, and no other. -/
  made : run.2 = ((List.range (min (firstFailed oracle protocols 0 target+1) target)).flatMap
    (attempts oracle protocols binds))
  complete : ∀ i, i < firstFailed oracle protocols 0 target →
    ∃ transport, firstSuccess oracle protocols i = some transport
  failed : firstFailed oracle protocols 0 target < target →
    firstSuccess oracle protocols (firstFailed oracle protocols 0 target) = none
  /-- No entry of the list is tried twice for a path. -/
  once : ∀ i, ((run.2.filter (·.path = i)).map Attempt.position).Nodup
  binds : ∀ a ∈ run.2, a.bind = binds[a.path]?
  secure : allowInsecure = false → ∀ a ∈ run.2, eqIgnoreAsciiCase a.protocol "naive_tcp" = false

variable {oracle : ℕ → ℕ → Except String τ} {protocols binds : List String}

theorem success_of_lt {path remaining i : ℕ} (hle : path ≤ i)
    (hlt : i < firstFailed oracle protocols path remaining) :
    ∃ transport, firstSuccess oracle protocols i = some transport := by
  induction remaining generalizing path with
  | zero =>
    rw [firstFailed_zero] at hlt
    omega
  | succ remaining ih =>
    cases hsuccess : firstSuccess oracle protocols path with
    | none =>
      rw [firstFailed_none hsuccess] at hlt
      omega
    | some transport =>
      rw [firstFailed_some hsuccess] at hlt
      rcases Nat.eq_or_lt_of_le hle with rfl | hle
      · exact ⟨transport,hsuccess⟩
      · exact ih hle hlt

theorem failure_of_lt {path remaining : ℕ}
    (hlt : firstFailed oracle protocols path remaining < path+remaining) :
    firstSuccess oracle protocols (firstFailed oracle protocols path remaining) = none := by
  induction remaining generalizing path with
  | zero =>
    rw [firstFailed_zero] at hlt
    omega
  | succ remaining ih =>
    cases hsuccess : firstSuccess oracle protocols path with
    | none => rwa [firstFailed_none hsuccess]
    | some transport =>
      rw [firstFailed_some hsuccess] at hlt ⊢
      exact ih (by omega)

theorem takeThrough_sublist {α : Type} (p : α → Bool) (l : List α) :
    List.Sublist (takeThrough p l) l := by
  induction l with
  | nil => exact List.Sublist.refl _
  | cons x xs ih =>
    unfold takeThrough
    split
    · exact List.Sublist.cons_cons x (List.nil_sublist xs)
    · exact List.Sublist.cons_cons x ih

theorem triedEntries_sublist (oracle : ℕ → ℕ → Except String τ) (protocols : List String)
    (path : ℕ) :
    List.Sublist (triedEntries oracle protocols path) (protocols.rotate path).zipIdx :=
  (takeThrough_sublist _ _).trans List.filter_sublist

theorem mem_of_attempt {path : ℕ} {a : Attempt} (h : a ∈ attempts oracle protocols binds path) :
    a.path = path ∧ a.bind = binds[path]? ∧ a.protocol ∈ protocols := by
  obtain ⟨e,he,rfl⟩ := List.mem_map.mp h
  have hmem := (triedEntries_sublist oracle protocols path).subset he
  exact ⟨rfl,rfl,List.mem_rotate.mp (List.fst_mem_of_mem_zipIdx hmem)⟩

theorem place_injective {n path a b : ℕ} (ha : a < n) (hb : b < n)
    (h : (path+a)%n = (path+b)%n) : a = b := by
  have hmod : a%n = b%n := Nat.ModEq.add_left_cancel' path h
  rwa [Nat.mod_eq_of_lt ha,Nat.mod_eq_of_lt hb] at hmod

theorem positions_nodup (oracle : ℕ → ℕ → Except String τ) (protocols binds : List String)
    (path : ℕ) : ((attempts oracle protocols binds path).map Attempt.position).Nodup := by
  have hsub := (triedEntries_sublist oracle protocols path).map
    fun e => (path+e.2)%protocols.length
  have hplaces : ((protocols.rotate path).zipIdx.map fun e => (path+e.2)%protocols.length) =
      (List.range protocols.length).map fun offset => (path+offset)%protocols.length := by
    have hsnd := List.zipIdx_map_snd 0 (protocols.rotate path)
    rw [List.length_rotate,← List.range_eq_range'] at hsnd
    rw [← hsnd,List.map_map]
    rfl
  rw [attempts,List.map_map]
  refine List.Nodup.sublist hsub ?_
  rw [hplaces]
  refine List.Nodup.map_on ?_ List.nodup_range
  intro a ha b hb h
  exact place_injective (List.mem_range.mp ha) (List.mem_range.mp hb) h

theorem filter_attempts (oracle : ℕ → ℕ → Except String τ) (protocols binds : List String)
    {paths : List ℕ} (hnodup : paths.Nodup) (i : ℕ) :
    List.Sublist ((paths.flatMap (attempts oracle protocols binds)).filter (·.path = i))
      (attempts oracle protocols binds i) := by
  induction paths with
  | nil => exact List.nil_sublist _
  | cons path paths ih =>
    obtain ⟨hnot,hnodup⟩ := List.nodup_cons.mp hnodup
    rw [List.flatMap_cons,List.filter_append]
    by_cases hpath : path = i
    · subst hpath
      have hrest : (paths.flatMap (attempts oracle protocols binds)).filter (·.path = path) = [] := by
        refine List.filter_eq_nil_iff.mpr fun a ha hsame => hnot ?_
        obtain ⟨j,hj,ha⟩ := List.mem_flatMap.mp ha
        rw [← of_decide_eq_true hsame,(mem_of_attempt ha).1]
        exact hj
      rw [hrest,List.append_nil]
      exact List.filter_sublist
    · have hfirst : (attempts oracle protocols binds path).filter (·.path = i) = [] := by
        refine List.filter_eq_nil_iff.mpr fun a ha hsame => hpath ?_
        rw [← of_decide_eq_true hsame,(mem_of_attempt ha).1]
      rw [hfirst,List.nil_append]
      exact ih hnodup

theorem mem_sanitized {preferred : List String} {protocol : String}
    (h : protocol ∈ sanitizePreferredProtocols preferred false) :
    eqIgnoreAsciiCase protocol "naive_tcp" = false := by
  have hdefault : ∀ p ∈ defaultProtocols, eqIgnoreAsciiCase p "naive_tcp" = false := by decide
  unfold sanitizePreferredProtocols at h
  generalize (if preferred = [] then defaultProtocols else preferred) = source at h
  dsimp only at h
  split at h
  · exact hdefault protocol h
  · simpa using (List.mem_filter.mp h).2

theorem Orderly.not_panicked {target : ℕ} {allowInsecure : Bool} {run : Result τ × List Attempt}
    (h : Orderly oracle protocols binds target allowInsecure run) : run.1 ≠ .panicked := by
  rw [h.result]
  split <;> exact nofun

theorem orderly_of_spec {target : ℕ} {allowInsecure : Bool} (htarget : 0 < target)
    (hsecure : allowInsecure = false →
      ∀ p ∈ protocols, eqIgnoreAsciiCase p "naive_tcp" = false) :
    Orderly oracle protocols binds target allowInsecure
      (establishFrom oracle protocols binds target 0 []) := by
  have hspec := establishFrom_spec oracle protocols binds target 0 []
  have htried : triedPaths oracle protocols 0 target =
      List.range (min (firstFailed oracle protocols 0 target+1) target) := by
    rw [triedPaths,List.range_eq_range',Nat.zero_add,Nat.sub_zero]
  have hmade : (establishFrom oracle protocols binds target 0 []).2 =
      (List.range (min (firstFailed oracle protocols 0 target+1) target)).flatMap
        (attempts oracle protocols binds) := by
    rw [hspec,← htried]
    rfl
  have hattempt : ∀ a ∈ (establishFrom oracle protocols binds target 0 []).2,
      a.bind = binds[a.path]? ∧ a.protocol ∈ protocols := by
    intro a ha
    rw [hmade] at ha
    obtain ⟨i,-,ha⟩ := List.mem_flatMap.mp ha
    obtain ⟨hpath,hbind,hmem⟩ := mem_of_attempt ha
    exact ⟨hpath ▸ hbind,hmem⟩
  refine ⟨?_,hmade,fun i hi => success_of_lt (Nat.zero_le i) hi,?_,?_,fun a ha => (hattempt a ha).1,
    fun hallow a ha => hsecure hallow a.protocol (hattempt a ha).2⟩
  · rw [hspec]
    simp only [htarget,true_and,List.nil_append,won,wonPaths,Nat.sub_zero,List.range_eq_range']
  · intro hlt
    exact failure_of_lt (by rwa [Nat.zero_add])
  · intro i
    rw [hmade]
    exact List.Nodup.sublist
      ((filter_attempts oracle protocols binds List.nodup_range i).map Attempt.position)
      (positions_nodup oracle protocols binds i)

end Claims

end Bonded.PathEstablishment
