import Bonded.CertRotation

/-! One cycle of certificate renewal: it installs a challenge certificate for every authorization,
waits until the order is decided, and writes the new certificate and then its key. Any call may
fail and end the cycle where it stands. -/
namespace Bonded.AcmeCycle

open CertRotation (Disk loadTlsAcceptor resolve)
open PeerShare (Outcome)

section Code

/-- What a file holds: what it held before the cycle, what the cycle writes, or what a write that
failed midway left, given by what a reader makes of it. -/
inductive Content (α : Type)
  | old
  | new
  | torn (read : Option α)
  deriving DecidableEq, Repr

structure Files where
  cert : Content (List (List UInt8))
  key : Content (List UInt8)
  deriving DecidableEq, Repr

/-- The slot for the challenge certificate, and the two files. -/
structure State where
  slot : Option (List UInt8)
  files : Files
  deriving DecidableEq, Repr

/-- What the library gives for an authorization; `challenge` is the certificate built for it. -/
inductive Authorization
  | fetchFailed
  | noChallenge
  | buildFailed
  | readyFailed (challenge : List UInt8)
  | ready (challenge : List UInt8)
  deriving DecidableEq, Repr

/-- What a refresh of the order gives; `late` says whether the deadline has passed. -/
inductive Refresh
  | failed
  | readyOrValid
  | invalid
  | pending (late : Bool)
  deriving DecidableEq, Repr

inductive Download
  | failed
  | notYet
  | issued
  deriving DecidableEq, Repr

inductive Write (α : Type)
  | written
  | untouched
  | torn (read : Option α)
  deriving DecidableEq, Repr

/-- The results of the calls of a cycle, in their order. -/
structure Script where
  builder : Bool
  account : Bool
  newOrder : Bool
  authorizations : List Authorization
  refreshes : List Refresh
  keyPair : Bool
  params : Bool
  csr : Bool
  finalize : Bool
  certificates : List Download
  createDir : Bool
  certWrite : Write (List (List UInt8))
  keyWrite : Write (List UInt8)
  deriving DecidableEq, Repr

/-- A part of a cycle; without a result it is still waiting. -/
def Cycle (α : Type) := State → Option (Outcome α × State)

instance : Monad Cycle where
  pure a := fun s => some (.ok a,s)
  bind x f := fun s =>
    match x s with
    | none => none
    | some (.error cause,t) => some (.error cause,t)
    | some (.ok a,t) => f a t

def fail {α : Type} (cause : Option String) : Cycle α := fun s => some (.error cause,s)

/-- A call that changes nothing here. -/
def call (ok : Bool) (cause : Option String) : Cycle Unit := if ok then pure () else fail cause

def set (challenge : List UInt8) : Cycle Unit := fun s => some (.ok (),{s with slot := some challenge})

def clear : Cycle Unit := fun s => some (.ok (),{s with slot := none})

def authorize : List Authorization → Cycle Unit
  | [] => pure ()
  | .fetchFailed::_ => fail (some "ACME: fetch authorization")
  | .noChallenge::_ => fail (some "ACME: no TLS-ALPN-01 challenge offered")
  | .buildFailed::_ => fail (some "ACME: build TLS-ALPN-01 challenge cert")
  | .readyFailed challenge::_ => do
    set challenge
    fail (some "ACME: set challenge ready")
  | .ready challenge::rest => do
    set challenge
    authorize rest

/-- Poll until the order is decided or the deadline has passed. -/
def poll : List Refresh → Cycle Unit
  | [] => fun _ => none
  | .failed::_ => fail (some "ACME: refresh order")
  | .readyOrValid::_ => pure ()
  | .invalid::_ => do
    clear
    fail (some "ACME: order became invalid during TLS-ALPN-01 challenge")
  | .pending late::rest =>
    if late then do
      clear
      fail (some "ACME: timed out waiting for TLS-ALPN-01 challenge validation")
    else poll rest

def download : List Download → Cycle Unit
  | [] => fun _ => none
  | .failed::_ => fail (some "ACME: download certificate")
  | .issued::_ => pure ()
  | .notYet::rest => download rest

def Write.left {α : Type} (before : Content α) : Write α → Content α
  | .written => .new
  | .untouched => before
  | .torn read => .torn read

def Write.succeeds {α : Type} : Write α → Bool
  | .written => true
  | _ => false

def writeCert (certFile : String) (w : Write (List (List UInt8))) : Cycle Unit := fun s =>
  let t := {s with files := {s.files with cert := w.left s.files.cert}}
  if w.succeeds then some (.ok (),t)
  else some (.error (some ("write ACME cert to "++certFile)),t)

def writeKey (keyFile : String) (w : Write (List UInt8)) : Cycle Unit := fun s =>
  let t := {s with files := {s.files with key := w.left s.files.key}}
  if w.succeeds then some (.ok (),t)
  else some (.error (some ("write ACME key to "++keyFile)),t)

/-- The calls up to the validation of the order. -/
def validate (script : Script) : Cycle Unit := do
  call script.builder none
  call script.account (some "ACME: create/load account")
  call script.newOrder (some "ACME: create order")
  authorize script.authorizations
  poll script.refreshes

/-- The calls that give the new certificate and its directory. -/
def issue (script : Script) : Cycle Unit := do
  call script.keyPair (some "ACME: generate final key pair")
  call script.params (some "ACME: build CSR params")
  call script.csr (some "ACME: serialize CSR")
  call script.finalize (some "ACME: finalize order")
  download script.certificates
  call script.createDir none

def runAcmeCycle (certFile keyFile : String) (script : Script) : Cycle ℕ := do
  validate script
  clear
  issue script
  writeCert certFile script.certWrite
  writeKey keyFile script.keyWrite
  return 90

end Code

section Conditions

def Authorization.passes : Authorization → Bool
  | .ready _ => true
  | _ => false

def Authorization.installs : Authorization → Bool
  | .ready _ | .readyFailed _ => true
  | _ => false

def Script.opened (script : Script) : Bool := script.builder && script.account && script.newOrder

/-- A challenge certificate is put into the slot. -/
def Script.installs (script : Script) : Bool :=
  script.opened && script.authorizations.head?.any Authorization.installs

/-- The order is refreshed in vain before it is decided. -/
def refreshFails : List Refresh → Bool
  | .failed::_ => true
  | .pending false::rest => refreshFails rest
  | _ => false

def validated : List Refresh → Bool
  | .readyOrValid::_ => true
  | .pending false::rest => validated rest
  | _ => false

def obtained : List Download → Bool
  | .issued::_ => true
  | .notYet::rest => obtained rest
  | _ => false

/-- A call fails before the slot is cleared. -/
def Script.interrupted (script : Script) : Bool :=
  !(script.opened && script.authorizations.all Authorization.passes) ||
    refreshFails script.refreshes

def Script.writes (script : Script) : Bool :=
  !script.interrupted && validated script.refreshes && script.keyPair && script.params &&
    script.csr && script.finalize && obtained script.certificates && script.createDir

/-- The writes change one file and not the other, or leave half of one. -/
def Script.tears (script : Script) : Bool :=
  match script.certWrite, script.keyWrite with
  | .untouched, _ => false
  | .written, .written => false
  | _, _ => true

end Conditions

section Parts

variable {α β : Type} {x : Cycle α} {f : α → Cycle β} {s t : State}

theorem bind_ok {a : α} (h : x s = some (.ok a,t)) : (x >>= f) s = f a t := by
  simp only [bind,h]

theorem bind_error {cause : Option String} (h : x s = some (.error cause,t)) :
    (x >>= f) s = some (.error cause,t) := by
  simp only [bind,h]

theorem bind_none (h : x s = none) : (x >>= f) s = none := by
  simp only [bind,h]

theorem ok_of_bind {b : β} (h : (x >>= f) s = some (.ok b,t)) :
    ∃ a u, x s = some (.ok a,u) ∧ f a u = some (.ok b,t) := by
  simp only [bind] at h
  split at h
  · cases h
  · cases h
  · next a u hx => exact ⟨a,u,hx,h⟩

theorem call_true (cause : Option String) (s : State) : call true cause s = some (.ok (),s) := rfl

theorem call_false (cause : Option String) (s : State) :
    call false cause s = some (.error cause,s) := rfl

theorem call_ok {ok : Bool} {cause : Option String} {u : Unit}
    (h : call ok cause s = some (.ok u,t)) : ok = true := by
  cases ok with
  | false => cases h
  | true => rfl

/-- The loop over the authorizations touches the slot only, and it fails at the first one that
does not pass. The slot stays empty exactly if the first one fails before its certificate is
installed, or there is none. -/
theorem authorize_spec (as : List Authorization) (s : State) :
    ∃ outcome slot, authorize as s = some (outcome,{s with slot := slot}) ∧
      (outcome = .ok () ↔ as.all Authorization.passes = true) ∧
      (slot = none ↔ s.slot = none ∧ as.head?.any Authorization.installs = false) := by
  induction as generalizing s with
  | nil => exact ⟨.ok (),s.slot,rfl,by simp,by simp⟩
  | cons a as ih =>
    cases a with
    | fetchFailed =>
      exact ⟨_,s.slot,rfl,by simp [Authorization.passes],by simp [Authorization.installs]⟩
    | noChallenge =>
      exact ⟨_,s.slot,rfl,by simp [Authorization.passes],by simp [Authorization.installs]⟩
    | buildFailed =>
      exact ⟨_,s.slot,rfl,by simp [Authorization.passes],by simp [Authorization.installs]⟩
    | readyFailed challenge =>
      exact ⟨_,some challenge,rfl,by simp [Authorization.passes],by simp [Authorization.installs]⟩
    | ready challenge =>
      obtain ⟨outcome,slot,hrun,hok,hslot⟩ := ih {s with slot := some challenge}
      refine ⟨outcome,slot,hrun,?_,?_⟩
      · simpa [Authorization.passes] using hok
      · simpa [Authorization.installs] using hslot

theorem poll_fails {rs : List Refresh} (h : refreshFails rs = true) (s : State) :
    ∃ cause, poll rs s = some (.error cause,s) := by
  induction rs with
  | nil => cases h
  | cons r rs ih =>
    cases r with
    | failed => exact ⟨_,rfl⟩
    | readyOrValid => cases h
    | invalid => cases h
    | pending late =>
      cases late with
      | true => cases h
      | false => exact ih h

theorem poll_decides {rs : List Refresh} (h : refreshFails rs = false) (s : State) :
    (validated rs = true ∧ poll rs s = some (.ok (),s)) ∨
      (validated rs = false ∧
        (poll rs s = none ∨ ∃ cause, poll rs s = some (.error cause,{s with slot := none}))) := by
  induction rs with
  | nil => exact .inr ⟨rfl,.inl rfl⟩
  | cons r rs ih =>
    cases r with
    | failed => cases h
    | readyOrValid => exact .inl ⟨rfl,rfl⟩
    | invalid => exact .inr ⟨rfl,.inr ⟨_,rfl⟩⟩
    | pending late =>
      cases late with
      | true => exact .inr ⟨rfl,.inr ⟨_,rfl⟩⟩
      | false => exact ih h

theorem download_spec (ds : List Download) (s : State) :
    (obtained ds = true ∧ download ds s = some (.ok (),s)) ∨
      (obtained ds = false ∧
        (download ds s = none ∨ ∃ cause, download ds s = some (.error cause,s))) := by
  induction ds with
  | nil => exact .inr ⟨rfl,.inl rfl⟩
  | cons d ds ih =>
    cases d with
    | failed => exact .inr ⟨rfl,.inr ⟨_,rfl⟩⟩
    | issued => exact .inl ⟨rfl,rfl⟩
    | notYet => exact ih

theorem validate_closed {script : Script} (h : script.opened = false) (s : State) :
    ∃ cause, validate script s = some (.error cause,s) := by
  unfold validate
  cases hbuilder : script.builder with
  | false => exact ⟨_,bind_error (call_false _ s)⟩
  | true =>
    rw [bind_ok (call_true _ s)]
    cases haccount : script.account with
    | false => exact ⟨_,bind_error (call_false _ s)⟩
    | true =>
      rw [bind_ok (call_true _ s)]
      cases hnew : script.newOrder with
      | false => exact ⟨_,bind_error (call_false _ s)⟩
      | true => simp [Script.opened,hbuilder,haccount,hnew] at h

theorem validate_opened {script : Script} (h : script.opened = true) (s : State) :
    validate script s =
      (authorize script.authorizations >>= fun _ => poll script.refreshes) s := by
  simp only [Script.opened,Bool.and_eq_true] at h
  obtain ⟨⟨hbuilder,haccount⟩,hnew⟩ := h
  unfold validate
  rw [hbuilder,haccount,hnew,bind_ok (call_true _ s),bind_ok (call_true _ s),
    bind_ok (call_true _ s)]

theorem validate_interrupted {script : Script} (h : script.interrupted = true) (s : State) :
    ∃ cause slot, validate script s = some (.error cause,{s with slot := slot}) ∧
      (slot = none ↔ s.slot = none ∧ script.installs = false) := by
  cases hopened : script.opened with
  | false =>
    obtain ⟨cause,hrun⟩ := validate_closed hopened s
    exact ⟨cause,s.slot,hrun,by simp [Script.installs,hopened]⟩
  | true =>
    obtain ⟨outcome,slot,hauth,hok,hslot⟩ := authorize_spec script.authorizations s
    rw [validate_opened hopened]
    cases outcome with
    | error cause =>
      exact ⟨cause,slot,bind_error hauth,by simpa [Script.installs,hopened] using hslot⟩
    | ok u =>
      have hpasses := hok.mp rfl
      have hfails : refreshFails script.refreshes = true := by
        simpa [Script.interrupted,hopened,hpasses] using h
      obtain ⟨cause,hpoll⟩ := poll_fails hfails {s with slot := slot}
      exact ⟨cause,slot,(bind_ok hauth).trans hpoll,by simpa [Script.installs,hopened] using hslot⟩

theorem validate_decided {script : Script} (h : script.interrupted = false) (s : State) :
    (validated script.refreshes = true ∧
        ∃ slot, validate script s = some (.ok (),{s with slot := slot})) ∨
      (validated script.refreshes = false ∧ (validate script s = none ∨
        ∃ cause, validate script s = some (.error cause,{s with slot := none}))) := by
  simp only [Script.interrupted,Bool.or_eq_false_iff,Bool.not_eq_false',Bool.and_eq_true] at h
  obtain ⟨⟨hopened,hpasses⟩,hrefresh⟩ := h
  obtain ⟨outcome,slot,hauth,hok,-⟩ := authorize_spec script.authorizations s
  rw [hok.mpr hpasses] at hauth
  rw [validate_opened hopened,bind_ok hauth]
  rcases poll_decides hrefresh {s with slot := slot} with ⟨hvalid,hpoll⟩ | ⟨hvalid,hpoll⟩
  · exact .inl ⟨hvalid,slot,hpoll⟩
  · exact .inr ⟨hvalid,hpoll⟩

/-- The calls that give the certificate succeed. -/
def Script.issues (script : Script) : Bool :=
  script.keyPair && script.params && script.csr && script.finalize &&
    obtained script.certificates && script.createDir

theorem issue_ok {script : Script} (h : script.issues = true) (s : State) :
    issue script s = some (.ok (),s) := by
  simp only [Script.issues,Bool.and_eq_true] at h
  obtain ⟨⟨⟨⟨⟨hkey,hparams⟩,hcsr⟩,hfinalize⟩,hobtained⟩,hdir⟩ := h
  have hdownload : download script.certificates s = some (.ok (),s) := by
    rcases download_spec script.certificates s with ⟨-,hrun⟩ | ⟨hnot,-⟩
    · exact hrun
    · rw [hobtained] at hnot
      cases hnot
  unfold issue
  rw [hkey,hparams,hcsr,hfinalize,hdir,bind_ok (call_true _ s),bind_ok (call_true _ s),
    bind_ok (call_true _ s),bind_ok (call_true _ s),bind_ok hdownload]
  rfl

theorem issues_of_ok {script : Script} {u : Unit} (h : issue script s = some (.ok u,t)) :
    script.issues = true := by
  obtain ⟨_,_,hkey,h⟩ := ok_of_bind h
  obtain ⟨_,_,hparams,h⟩ := ok_of_bind h
  obtain ⟨_,_,hcsr,h⟩ := ok_of_bind h
  obtain ⟨_,_,hfinalize,h⟩ := ok_of_bind h
  obtain ⟨_,v,hdownload,hdir⟩ := ok_of_bind h
  have hobtained : obtained script.certificates = true := by
    by_contra hnot
    rcases download_spec script.certificates _ with ⟨hyes,-⟩ | ⟨-,hrun | ⟨cause,hrun⟩⟩
    · exact hnot hyes
    · rw [hrun] at hdownload
      cases hdownload
    · rw [hrun] at hdownload
      cases hdownload
  simp only [Script.issues,call_ok hkey,call_ok hparams,call_ok hcsr,call_ok hfinalize,hobtained,
    call_ok hdir,Bool.and_true]

/-- A part that changes nothing. -/
def Idle (x : Cycle Unit) : Prop :=
  ∀ s, x s = none ∨ (∃ cause, x s = some (.error cause,s)) ∨ x s = some (.ok (),s)

theorem Idle.bind {x y : Cycle Unit} (hx : Idle x) (hy : Idle y) : Idle (x >>= fun _ => y) := by
  intro s
  rcases hx s with hrun | ⟨cause,hrun⟩ | hrun
  · exact .inl (bind_none hrun)
  · exact .inr (.inl ⟨cause,bind_error hrun⟩)
  · rw [bind_ok hrun]
    exact hy s

theorem idle_call (ok : Bool) (cause : Option String) : Idle (call ok cause) := by
  intro s
  cases ok with
  | false => exact .inr (.inl ⟨cause,rfl⟩)
  | true => exact .inr (.inr rfl)

theorem idle_issue (script : Script) : Idle (issue script) := by
  have hdownload : Idle (download script.certificates) := by
    intro s
    rcases download_spec script.certificates s with ⟨-,hrun⟩ | ⟨-,hrun⟩
    · exact .inr (.inr hrun)
    · exact hrun.imp_right .inl
  exact (idle_call _ _).bind ((idle_call _ _).bind ((idle_call _ _).bind ((idle_call _ _).bind
    (hdownload.bind (idle_call _ _)))))

end Parts

section Cycles

variable {script : Script} (certFile keyFile : String)

theorem writes_eq (script : Script) :
    script.writes = (!script.interrupted && validated script.refreshes && script.issues) := by
  simp only [Script.writes,Script.issues,Bool.and_assoc]

def Script.left (script : Script) (files : Files) : Files :=
  if script.certWrite.succeeds then ⟨.new,script.keyWrite.left files.key⟩
  else {files with cert := script.certWrite.left files.cert}

theorem run_interrupted (h : script.interrupted = true) (s : State) :
    ∃ cause slot, runAcmeCycle certFile keyFile script s =
        some (.error cause,{s with slot := slot}) ∧
      (slot = none ↔ s.slot = none ∧ script.installs = false) := by
  obtain ⟨cause,slot,hrun,hslot⟩ := validate_interrupted h s
  exact ⟨cause,slot,bind_error hrun,hslot⟩

theorem run_validated {slot : Option (List UInt8)} {s : State}
    (h : validate script s = some (.ok (),{s with slot := slot})) :
    runAcmeCycle certFile keyFile script s = (issue script >>= fun _ =>
      writeCert certFile script.certWrite >>= fun _ =>
        writeKey keyFile script.keyWrite >>= fun _ => pure 90) {s with slot := none} := by
  unfold runAcmeCycle
  rw [bind_ok h]
  rfl

theorem run_writes (h : script.writes = true) (s : State) :
    ∃ outcome, runAcmeCycle certFile keyFile script s =
      some (outcome,⟨none,script.left s.files⟩) := by
  rw [writes_eq] at h
  simp only [Bool.and_eq_true,Bool.not_eq_true'] at h
  obtain ⟨⟨hnot,hvalid⟩,hissues⟩ := h
  rcases validate_decided hnot s with ⟨-,slot,hrun⟩ | ⟨hinvalid,-⟩
  · rw [run_validated certFile keyFile hrun,bind_ok (issue_ok hissues _)]
    unfold Script.left
    cases hcert : script.certWrite with
    | written => cases hkey : script.keyWrite <;> exact ⟨_,rfl⟩
    | untouched => exact ⟨_,rfl⟩
    | torn read => exact ⟨_,rfl⟩
  · rw [hvalid] at hinvalid
    cases hinvalid

theorem run_else (hnot : script.interrupted = false) (h : script.writes = false) {s t : State}
    {outcome : Outcome ℕ} (hrun : runAcmeCycle certFile keyFile script s = some (outcome,t)) :
    t = {s with slot := none} := by
  rcases validate_decided hnot s with ⟨hvalid,slot,hstep⟩ | ⟨-,hstep | ⟨cause,hstep⟩⟩
  · rw [run_validated certFile keyFile hstep] at hrun
    rcases idle_issue script {s with slot := none} with hissue | ⟨cause,hissue⟩ | hissue
    · rw [bind_none hissue] at hrun
      cases hrun
    · rw [bind_error hissue] at hrun
      cases hrun
      rfl
    · have hissues := issues_of_ok hissue
      simp [writes_eq,hnot,hvalid,hissues] at h
  · rw [runAcmeCycle,bind_none hstep] at hrun
    cases hrun
  · rw [runAcmeCycle,bind_error hstep] at hrun
    cases hrun
    rfl

/-- The slot is empty, and the files hold one pair. -/
structure Consistent (t : State) : Prop where
  slot : t.slot = none
  files : t.files = ⟨.old,.old⟩ ∨ t.files = ⟨.new,.new⟩

theorem left_iff (script : Script) :
    (script.left ⟨.old,.old⟩ = ⟨.old,.old⟩ ∨ script.left ⟨.old,.old⟩ = ⟨.new,.new⟩) ↔
      script.tears = false := by
  unfold Script.left Script.tears
  cases script.certWrite <;> cases script.keyWrite <;> simp [Write.succeeds,Write.left]

def Content.read {α : Type} (before issued : Option α) : Content α → Option α
  | .old => before
  | .new => issued
  | .torn read => read

def Files.disk (before issued : Disk) (files : Files) : Disk :=
  ⟨files.cert.read before.certChain issued.certChain,files.key.read before.key issued.key⟩

/-- A server that loads the files gets a certificate with its own key. -/
def LoadsPair (belongs : List UInt8 → List UInt8 → Prop) (disk : Disk) : Prop :=
  ∀ leaf der key, loadTlsAcceptor true disk = .ok (some leaf,der,some key) → belongs leaf key

theorem Consistent.resolves {t : State} (h : Consistent t) (mainCert : List UInt8)
    (alpn : List String) : resolve mainCert t.slot alpn = mainCert := by
  simp [resolve,h.slot]

theorem Consistent.loads {t : State} (h : Consistent t) {belongs : List UInt8 → List UInt8 → Prop}
    {before issued : Disk} (hbefore : LoadsPair belongs before) (hissued : LoadsPair belongs issued) :
    LoadsPair belongs (t.files.disk before issued) := by
  rcases h.files with hfiles | hfiles
  · rw [hfiles]
    exact hbefore
  · rw [hfiles]
    exact hissued

/-- A cycle leaves a consistent state whenever it returns exactly if no call fails between the
first challenge and the decision of the order (nor before it, if the slot was not empty), and
the writes, if it gets to them, leave both files new or the first one untouched. A consistent
state serves the main certificate to every client and loads a certificate with its own key. -/
theorem acme_cycle_consistent_iff (script : Script) (slot : Option (List UInt8)) :
    ((∀ outcome t,
        runAcmeCycle certFile keyFile script ⟨slot,⟨.old,.old⟩⟩ = some (outcome,t) →
          Consistent t) ↔
      (script.interrupted = false ∨ slot = none ∧ script.installs = false) ∧
        (script.writes = true → script.tears = false)) ∧
    ∀ t, Consistent t →
      (∀ mainCert alpn, resolve mainCert t.slot alpn = mainCert) ∧
      ∀ belongs before issued, LoadsPair belongs before → LoadsPair belongs issued →
        LoadsPair belongs (t.files.disk before issued) := by
  refine ⟨?_,fun t ht => ⟨ht.resolves,fun _ _ _ hbefore hissued => ht.loads hbefore hissued⟩⟩
  cases hint : script.interrupted with
  | true =>
    have hnot : script.writes = false := by simp [writes_eq,hint]
    obtain ⟨cause,left,hrun,hleft⟩ := run_interrupted certFile keyFile hint ⟨slot,⟨.old,.old⟩⟩
    rw [hrun,hnot]
    constructor
    · intro h
      exact ⟨.inr (hleft.mp (h _ _ rfl).slot),nofun⟩
    · rintro ⟨hquiet | hquiet,-⟩ outcome t ht
      · cases hquiet
      · cases ht
        exact ⟨hleft.mpr hquiet,.inl rfl⟩
  | false =>
    cases hwrites : script.writes with
    | true =>
      obtain ⟨outcome,hrun⟩ := run_writes certFile keyFile hwrites ⟨slot,⟨.old,.old⟩⟩
      rw [hrun]
      constructor
      · intro h
        exact ⟨.inl rfl,fun _ => (left_iff script).mp (h _ _ rfl).files⟩
      · rintro ⟨-,htears⟩ outcome' t ht
        cases ht
        exact ⟨rfl,(left_iff script).mpr (htears rfl)⟩
    | false =>
      refine ⟨fun _ => ⟨.inl rfl,nofun⟩,fun _ outcome t ht => ?_⟩
      rw [run_else certFile keyFile hint hwrites ht]
      exact ⟨rfl,.inl rfl⟩

def smooth : Script :=
  ⟨true,true,true,[.ready [1]],[.pending false,.readyOrValid],true,true,true,true,
    [.notYet,.issued],true,.written,.written⟩

/-- A challenge that cannot be signalled stays in the slot and is served to clients; a key that
cannot be written leaves the new certificate with the old key, and both are loaded. -/
theorem failed_cycles_leave_traces :
    runAcmeCycle "c" "k" {smooth with authorizations := [.readyFailed [1]]}
        ⟨none,⟨.old,.old⟩⟩ =
      some (.error (some "ACME: set challenge ready"),⟨some [1],⟨.old,.old⟩⟩) ∧
    resolve [7] (some [1]) ["acme-tls/1"] = [1] ∧
    runAcmeCycle "c" "k" {smooth with keyWrite := .untouched} ⟨none,⟨.old,.old⟩⟩ =
      some (.error (some "write ACME key to k"),⟨none,⟨.new,.old⟩⟩) ∧
    loadTlsAcceptor true (Files.disk ⟨some [[3]],some [4]⟩ ⟨some [[5]],some [6]⟩ ⟨.new,.old⟩) =
      .ok (some [5],some [5],some [4]) ∧
    runAcmeCycle "c" "k" smooth ⟨none,⟨.old,.old⟩⟩ = some (.ok 90,⟨none,⟨.new,.new⟩⟩) :=
  ⟨by decide +kernel,by decide,by decide +kernel,by decide +kernel,by decide +kernel⟩

end Cycles

end Bonded.AcmeCycle
