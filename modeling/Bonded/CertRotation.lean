import Bonded.HttpAgreement

/-! The certificate of the server over its renewals. It is loaded once at the start, into the
acceptor of the HTTPS listener, into the context that answers cert-proofs and into the QUIC
endpoint; a renewal writes new files and loads them into the acceptor. -/
namespace Bonded.CertRotation

open Auth Bootstrap CertProof ClientHandshake HttpAgreement Machine

section Server

/-- The files of the server: the chain in the certificate file, if it can be read, and the key
in the other one, if it is one that TLS supports. Missing files have been generated. -/
structure Disk where
  certChain : Option (List (List UInt8))
  key : Option (List UInt8)
  deriving DecidableEq, Repr

inductive LoadError
  | unreadable
  | noCertificates
  | unusableKey
  deriving DecidableEq, Repr

/-- The acceptor of the listener, given by its main certificate, the leaf and the key.
`configured` is whether both file names are set. -/
def loadTlsAcceptor (configured : Bool) (disk : Disk) :
    Except LoadError (Option (List UInt8) × Option (List UInt8) × Option (List UInt8)) :=
  if configured = false then .ok (none,none,none)
  else
    match disk.certChain with
    | none => .error .unreadable
    | some [] => .error .noCertificates
    | some (leaf::_) =>
      match disk.key with
      | none => .error .unusableKey
      | some key => .ok (some leaf,some leaf,some key)

/-- A TCP connection that the listener has accepted, with the acceptor that it read at that
time and the certificate in the files. -/
structure Accepted where
  acceptor : Option (List UInt8)
  newest : Option (List UInt8)
  deriving DecidableEq, Repr

/-- A handshake: the leaf that was presented, the newest one when the connection was accepted,
and the answer of the cert-proof endpoint over the connection. -/
structure Served where
  presented : List UInt8
  newest : Option (List UInt8)
  proof : Reply

structure Server where
  disk : Disk
  tlsSlot : Option (List UInt8)
  acmeSlot : Option (List UInt8)
  ctx : BootstrapContext
  quicCert : Option (List UInt8)
  accepted : List Accepted
  served : List Served

def Disk.leaf (disk : Disk) : Option (List UInt8) := (disk.certChain.getD []).head?

variable (configured : Bool) (libs : Libs)

/-- The server does not start if the files cannot be loaded. -/
def start (ctx : BootstrapContext) (disk : Disk) : Option Server :=
  match loadTlsAcceptor configured disk with
  | .error _ => none
  | .ok (acceptor,tlsCertDer,_) => some {
      disk := disk
      tlsSlot := acceptor
      acmeSlot := none
      ctx := {ctx with tlsCertDer := tlsCertDer}
      quicCert := tlsCertDer
      accepted := []
      served := []}

/-- The certificate for a client that offers some protocols. -/
def resolve (mainCert : List UInt8) (acmeSlot : Option (List UInt8)) (alpn : List String) :
    List UInt8 :=
  if "acme-tls/1" ∈ alpn then acmeSlot.getD mainCert else mainCert

/-- `set` and `clear` are the challenge of a renewal, `renew` writes its files and calls the
reload closure. -/
inductive Event
  | set (challenge : List UInt8)
  | clear
  | renew (disk : Disk)
  | accept
  | handshake (i : ℕ) (alpn : List String)
  | quic
  deriving DecidableEq, Repr

def step (s : Server) : Event → Option Server
  | .set challenge => some {s with acmeSlot := some challenge}
  | .clear => some {s with acmeSlot := none}
  | .renew disk =>
    match loadTlsAcceptor configured disk with
    | .ok (acceptor,_,_) => some {s with disk := disk, tlsSlot := acceptor}
    | .error _ => some {s with disk := disk}
  | .accept => some {s with accepted := s.accepted++[⟨s.tlsSlot,s.disk.leaf⟩]}
  | .handshake i alpn =>
    match s.accepted[i]? with
    | some ⟨some mainCert,newest⟩ => some {s with
        served := s.served++[⟨resolve mainCert s.acmeSlot alpn,newest,certProofResponse libs s.ctx⟩]}
    -- without an acceptor the connection is a plain one
    | _ => none
  | .quic =>
    match s.quicCert with
    | none => none
    | some cert =>
      some {s with served := s.served++[⟨cert,s.disk.leaf,certProofResponse libs s.ctx⟩]}

/-- The proof is for the certificate that was presented, a client with the server's key accepts
it, and the certificate is the newest one. -/
def Proven (serverPublicKey : String) (c : Served) : Prop :=
  c.proof.1 = .ok ∧ textAt c.proof.2 "cert_fingerprint" = some (computeFingerprint libs c.presented) ∧
    verifyCertProofResponse libs c.presented serverPublicKey (jsonText c.proof.2) =
      .ok (computeFingerprint libs c.presented) ∧ c.newest = some c.presented

/-- A renewal brings the certificate of the start again, and no client offers the protocol of
the challenge while there is one. -/
def Unchanged (s : Server) : Event → Prop
  | .renew disk => ∃ key, loadTlsAcceptor configured disk =
      .ok (s.ctx.tlsCertDer,s.ctx.tlsCertDer,key)
  | .handshake _ alpn => "acme-tls/1" ∈ alpn → s.acmeSlot = none
  | _ => True

/-- The identity key signs every message, and its public key verifies the signatures. -/
def SignsWith (serverPublicKey : String) : Prop :=
  ∀ message, ∃ signature, libs.signBytes message = some signature ∧
    verifySignature libs.crypto serverPublicKey message signature = .ok ()

/-- The client reads the answer back as the server has built it. -/
def ReadsBack (reply : Reply) : Prop := libs.fromStr (jsonText reply.2) = some reply.2

end Server

section Invariant

variable {configured : Bool} {libs : Libs} {serverPublicKey : String} {s t : Server}

theorem load_ok {disk : Disk} {acceptor cert key : Option (List UInt8)}
    (h : loadTlsAcceptor configured disk = .ok (acceptor,cert,key)) :
    acceptor = cert ∧ ∀ c, cert = some c → disk.leaf = some c := by
  unfold loadTlsAcceptor at h
  split at h
  · cases h
    exact ⟨rfl,by simp⟩
  · split at h
    · cases h
    · cases h
    · next hchain =>
      split at h
      · cases h
      · cases h
        exact ⟨rfl,fun c hc => by simpa [Disk.leaf,hchain] using hc⟩

theorem proven_of_cert (hsigns : SignsWith libs serverPublicKey) {ctx : BootstrapContext}
    {cert : List UInt8} (hcert : ctx.tlsCertDer = some cert)
    (hreads : ReadsBack libs (certProofResponse libs ctx)) :
    Proven libs serverPublicKey ⟨cert,some cert,certProofResponse libs ctx⟩ := by
  obtain ⟨signature,hsign,hverify⟩ := hsigns (JsonText.utf8 (computeFingerprint libs cert))
  have hproof : certProofResponse libs ctx = (.ok,.obj
      [("cert_fingerprint",.str (computeFingerprint libs cert)),
        ("ed25519_signature",.str signature)]) := by
    have hcall : certProof libs ctx = some (some (computeFingerprint libs cert,signature)) := by
      have hfingerprint : libs.signBytes ("sha256:"++hex (libs.sha256 cert)).toUTF8.toList =
          some signature := hsign
      simp only [certProof,hcert,Option.map_some,hfingerprint,computeFingerprint]
    simp only [certProofResponse,hcall]
  rw [hproof] at hreads ⊢
  refine ⟨rfl,rfl,?_,rfl⟩
  refine verifyCertProofResponse_ok.mpr ⟨signature,?_,hverify,rfl⟩
  have hread : libs.fromStr (jsonText (.obj
      [("cert_fingerprint",.str (computeFingerprint libs cert)),
        ("ed25519_signature",.str signature)])) = _ := hreads
  simp only [proofFields,hread]
  rfl

variable (libs serverPublicKey) in
/-- The acceptor, the endpoint, the files and what was accepted have the certificate that the
context has. -/
structure Inv (s : Server) : Prop where
  slot : s.tlsSlot = s.ctx.tlsCertDer
  quic : s.quicCert = s.ctx.tlsCertDer
  newest : ∀ c, s.ctx.tlsCertDer = some c → s.disk.leaf = some c
  accepted : ∀ a ∈ s.accepted, a.acceptor = s.ctx.tlsCertDer ∧
    ∀ c, s.ctx.tlsCertDer = some c → a.newest = some c
  served : ∀ c ∈ s.served, Proven libs serverPublicKey c
  reads : ReadsBack libs (certProofResponse libs s.ctx)

theorem inv_start {ctx : BootstrapContext} {disk : Disk} (h : start configured ctx disk = some s)
    (hreads : ReadsBack libs (certProofResponse libs s.ctx)) : Inv libs serverPublicKey s := by
  unfold start at h
  split at h
  · cases h
  · next hload =>
    obtain ⟨hsame,hleaf⟩ := load_ok hload
    cases h
    exact ⟨hsame,rfl,hleaf,by simp,by simp,hreads⟩

theorem Inv.serve (h : Inv libs serverPublicKey s) (hsigns : SignsWith libs serverPublicKey)
    {cert : List UInt8} (hcert : s.ctx.tlsCertDer = some cert) :
    Inv libs serverPublicKey
      {s with served := s.served++[⟨cert,some cert,certProofResponse libs s.ctx⟩]} := by
  refine ⟨h.slot,h.quic,h.newest,h.accepted,?_,h.reads⟩
  intro c hc
  rcases List.mem_append.mp hc with hold | hnew
  · exact h.served c hold
  · rw [List.mem_singleton.mp hnew]
    exact proven_of_cert hsigns hcert h.reads

theorem Inv.step (h : Inv libs serverPublicKey s) (hsigns : SignsWith libs serverPublicKey)
    {e : Event} (hunchanged : Unchanged configured s e)
    (ht : step configured libs s e = some t) : Inv libs serverPublicKey t := by
  cases e with
  | set challenge =>
    cases ht
    exact ⟨h.slot,h.quic,h.newest,h.accepted,h.served,h.reads⟩
  | clear =>
    cases ht
    exact ⟨h.slot,h.quic,h.newest,h.accepted,h.served,h.reads⟩
  | renew disk =>
    obtain ⟨key,hload⟩ := hunchanged
    simp only [CertRotation.step,hload,Option.some.injEq] at ht
    subst ht
    exact ⟨rfl,h.quic,(load_ok hload).2,h.accepted,h.served,h.reads⟩
  | accept =>
    cases ht
    refine ⟨h.slot,h.quic,h.newest,?_,h.served,h.reads⟩
    intro a ha
    rcases List.mem_append.mp ha with hold | hnew
    · exact h.accepted a hold
    · rw [List.mem_singleton.mp hnew]
      exact ⟨h.slot,h.newest⟩
  | handshake i alpn =>
    simp only [CertRotation.step] at ht
    split at ht
    · next mainCert newest hi =>
      cases ht
      obtain ⟨hmain,hnewest⟩ := h.accepted _ (List.mem_of_getElem? hi)
      have hresolve : resolve mainCert s.acmeSlot alpn = mainCert := by
        unfold resolve
        split
        · next halpn => rw [hunchanged halpn,Option.getD_none]
        · rfl
      have hcert := hmain.symm
      rw [hresolve,show newest = some mainCert from hnewest mainCert hcert]
      exact h.serve hsigns hcert
    · cases ht
  | quic =>
    simp only [CertRotation.step] at ht
    split at ht
    · cases ht
    · next cert hquic =>
      cases ht
      have hcert : s.ctx.tlsCertDer = some cert := h.quic ▸ hquic
      rw [h.newest cert hcert]
      exact h.serve hsigns hcert

end Invariant

/-- In every run in which each renewal brings the certificate of the start again and no client
offers the protocol of a challenge, every connection presents the newest certificate and its
cert-proof is for that certificate. -/
theorem cert_proof_matches (configured : Bool) (libs : Libs) (serverPublicKey : String)
    (ctx : BootstrapContext) (disk : Disk) (s : Server) (events : List Event)
    (hsigns : SignsWith libs serverPublicKey) (hstart : start configured ctx disk = some s)
    (hreads : ReadsBack libs (certProofResponse libs s.ctx))
    (hunchanged : Meets (step configured libs) (Unchanged configured) s events) :
    Along (step configured libs) (fun t => ∀ c ∈ t.served, Proven libs serverPublicKey c) s
      events :=
  along_of_meets (fun _ h => h.served) (fun _ _ _ h hu ht => h.step hsigns hu ht)
    (inv_start hstart hreads) hunchanged

section Renewal

def firstDisk : Disk := ⟨some [[1]],some [7]⟩

def renewedDisk : Disk := ⟨some [[2]],some [8]⟩

def bareContext : BootstrapContext := ⟨none,"vpn.example:443",none,none,0⟩

def started : Server := ⟨firstDisk,some [1],none,{bareContext with tlsCertDer := some [1]},some [1],[],[]⟩

/-- The libraries of the server and of a client that reads its one answer. -/
def proofLibs : Libs :=
  let answer := (certProofResponse serverLibs started.ctx).2
  {serverLibs with fromStr := fun text => if text = jsonText answer then some answer else none}

theorem proofLibs_signs : SignsWith proofLibs serverPublicKey :=
  fun message => ⟨_,rfl,verifySignature_sign demoSigning_lawful (by decide) message⟩

theorem proofLibs_readsBack : ReadsBack proofLibs (certProofResponse proofLibs started.ctx) :=
  if_pos rfl

/-- A challenge is set while a client connects; then the same files are written again. -/
def unchangedRun : List Event :=
  [.accept,.set [9],.handshake 0 ["http/1.1"],.clear,.renew firstDisk,.quic]

theorem cert_proof_matches_unchanged :
    ∃ t, exec (step true proofLibs) started unchangedRun = some t ∧ t.served.length = 2 ∧
      ∀ c ∈ t.served, Proven proofLibs serverPublicKey c := by
  have hrun : ∃ t, exec (step true proofLibs) started unchangedRun = some t ∧
      t.served.length = 2 := ⟨_,rfl,rfl⟩
  obtain ⟨t,ht,hlength⟩ := hrun
  refine ⟨t,ht,hlength,cert_proof_matches true proofLibs serverPublicKey bareContext firstDisk
    started unchangedRun proofLibs_signs rfl proofLibs_readsBack ?_ _ t (List.prefix_refl _) ht⟩
  refine ⟨trivial,?_⟩
  rintro t ⟨⟩
  refine ⟨trivial,?_⟩
  rintro t ⟨⟩
  refine ⟨fun halpn => absurd halpn (by decide),?_⟩
  rintro t ⟨⟩
  refine ⟨trivial,?_⟩
  rintro t ⟨⟩
  refine ⟨⟨some [7],rfl⟩,?_⟩
  rintro t ⟨⟩
  exact ⟨trivial,fun _ _ => trivial⟩

/-- A renewal brings a new certificate; then both listeners are used. -/
def renewedRun : List Event := [.renew renewedDisk,.accept,.handshake 0 ["http/1.1"],.quic]

/-- HTTPS presents the new certificate with the proof for the old one, and QUIC presents the old
one. -/
theorem renewed_certificate_is_not_proven :
    start true bareContext firstDisk = some started ∧
    ∃ t c d, exec (step true proofLibs) started renewedRun = some t ∧ t.served = [c,d] ∧
      c.presented = [2] ∧ ¬ Proven proofLibs serverPublicKey c ∧
      d.presented = [1] ∧ ¬ Proven proofLibs serverPublicKey d := by
  refine ⟨rfl,_,_,_,rfl,rfl,rfl,?_,rfl,?_⟩
  · rintro ⟨-,hfingerprint,-⟩
    exact absurd (Option.some.inj hfingerprint) (by decide)
  · rintro ⟨-,-,-,hnewest⟩
    cases hnewest

end Renewal

end Bonded.CertRotation
