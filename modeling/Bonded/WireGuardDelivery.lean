import Bonded.WireGuardServer

/-! When the WireGuard listener processes a datagram exactly once. -/
namespace Bonded.WireGuardDelivery

open Machine Session WireGuardServer

variable {τ : Type} (api : TunnApi τ)

/-- The datagram of the round went to each peer's tunnel at most once; if a tunnel accepted
it, its frames were handled once, in order, and its source is mapped to that peer. -/
def ProcessedOnce (s : ServerState τ) : Prop :=
  ∀ src, s.source = some src → (∀ key, s.calls.countP (fun c => c.1 = key) ≤ 1) ∧
    ∀ key frames, (key,some frames) ∈ s.calls →
      s.handled = [(key,frames)] ∧ s.peerBySource.get src = some key

/-- The condition: a datagram of a mapped source is answered completely if it is accepted,
and a datagram of any other source is accepted by nobody. -/
def SourceKnown (s : ServerState τ) : Event τ → Prop
  | .datagram src data peers sends =>
    s.ended = true ∨ ¬ (peers.map (·.devicePublicKey)).Nodup ∨
      match matchedPeer s src with
      | some key => ∀ r d, s.runtimes.get key = some r → accepts api r src data = some d →
          d.outbound.length ≤ sends
      | none => someoneAccepts api s src data peers s.sessions = false
  | _ => True

section Search

variable (s₀ : ServerState τ) (src : SocketAddr) (datagram : List UInt8)
  (peers : List WireGuardPeer) (s : ServerState τ)
  (hsame : ∀ p ∈ peers, s.runtimes.get p.devicePublicKey = s₀.runtimes.get p.devicePublicKey)
  (hnodup : (peers.map (·.devicePublicKey)).Nodup)
include hsame hnodup

/-- A search in which nobody accepts calls each tunnel at most once. -/
theorem searchPeers_rejected
    (h : someoneAccepts api s₀ src datagram peers s.sessions = false) :
    ∃ tried : List String, tried.Sublist (peers.map (·.devicePublicKey)) ∧
      (searchPeers api src datagram peers s).2.calls = s.calls++tried.map (fun k => (k,none)) ∧
      ∀ key, (searchPeers api src datagram peers s).1 ≠ .found key := by
  induction peers generalizing s with
  | nil => exact ⟨[],List.nil_sublist _,by simp [searchPeers],by simp [searchPeers]⟩
  | cons peer peers ih =>
    obtain ⟨hfresh,hnodup⟩ := List.nodup_cons.mp hnodup
    obtain ⟨hkeep,-,-,-,hcalls⟩ := ensurePeerRuntime_keeps api s peer
    have hres := ensurePeerRuntime_result api s s₀ peer (hsame peer (by simp))
    simp only [someoneAccepts] at h
    generalize hens : ensurePeerRuntime api s peer = made at hkeep hcalls hres
    obtain ⟨ok,s₁⟩ := made
    simp only at hkeep hcalls
    cases hrt : runtimeFor api s₀ s.sessions peer with
    | none =>
      simp only [hrt] at hres
      subst hres
      simp only [searchPeers,hens]
      exact ⟨[],List.nil_sublist _,by simp [hcalls],by simp⟩
    | some made =>
      obtain ⟨r,sessions⟩ := made
      simp only [hrt] at hres h
      obtain ⟨rfl,hget,hsess⟩ := hres
      simp only [Bool.or_eq_false_iff,Option.isSome_eq_false_iff,Option.isNone_iff_eq_none] at h
      obtain ⟨t,ht,hbut,htc⟩ := tryAcceptDatagram_rejects api hget h.1
      simp only [searchPeers,hens,ht]
      obtain ⟨tried,hsub,htried,hnot⟩ := ih t (fun p hp => by
          have hne : p.devicePublicKey ≠ peer.devicePublicKey := fun heq =>
            hfresh (List.mem_map.mpr ⟨p,hp,heq⟩)
          rw [hbut.runtimes _ hne,hkeep _ hne,hsame p (by simp [hp])]) hnodup
        (by rw [hbut.sessions,hsess]; exact h.2)
      by_cases hb : boundTo r src = true
      · refine ⟨peer.devicePublicKey::tried,hsub.cons_cons _,?_,hnot⟩
        simp [htried,htc,hb,hcalls]
      · refine ⟨tried,hsub.cons _,?_,hnot⟩
        simp [htried,htc,hb,hcalls]

/-- A search in which somebody accepts records the accepted call, handles nothing, and
either fails or leaves the accepting runtime bound to the source. -/
theorem searchPeers_accepted
    (h : someoneAccepts api s₀ src datagram peers s.sessions = true) :
    ∃ key frames, (key,some frames) ∈ (searchPeers api src datagram peers s).2.calls ∧
      ((searchPeers api src datagram peers s).1 = .failed ∨
        (searchPeers api src datagram peers s).1 = .found key ∧
        ∃ r before, (searchPeers api src datagram peers s).2.runtimes.get key = some r ∧
          r.peerAddr = some src ∧ (api.decapsulate before src.ip datagram).1 ≠ .err ∧
          r.tunn = (api.flush (api.decapsulate before src.ip datagram).2).2) := by
  induction peers generalizing s with
  | nil => simp [someoneAccepts] at h
  | cons peer peers ih =>
    obtain ⟨hfresh,hnodup⟩ := List.nodup_cons.mp hnodup
    obtain ⟨hkeep,-⟩ := ensurePeerRuntime_keeps api s peer
    have hres := ensurePeerRuntime_result api s s₀ peer (hsame peer (by simp))
    simp only [someoneAccepts] at h
    generalize hens : ensurePeerRuntime api s peer = made at hkeep hres
    obtain ⟨ok,s₁⟩ := made
    cases hrt : runtimeFor api s₀ s.sessions peer with
    | none => simp [hrt] at h
    | some made =>
      obtain ⟨r,sessions⟩ := made
      simp only [hrt] at hres h
      obtain ⟨rfl,hget,hsess⟩ := hres
      cases hacc : accepts api r src datagram with
      | none =>
        obtain ⟨t,ht,hbut,-⟩ := tryAcceptDatagram_rejects api hget hacc
        simp only [searchPeers,hens,ht]
        exact ih t (fun p hp => by
            have hne : p.devicePublicKey ≠ peer.devicePublicKey := fun heq =>
              hfresh (List.mem_map.mpr ⟨p,hp,heq⟩)
            rw [hbut.runtimes _ hne,hkeep _ hne,hsame p (by simp [hp])]) hnodup
          (by rw [hbut.sessions,hsess]; simpa [hacc] using h)
      | some d =>
        obtain ⟨t,r',ht,-,hcalls,hr',haddr,htunn⟩ := tryAcceptDatagram_accepts api hget hacc
        simp only [searchPeers,hens,ht]
        refine ⟨peer.devicePublicKey,d.frames,?_⟩
        by_cases hsend : d.outbound.length ≤ s₁.sends
        · simp only [if_pos hsend,hcalls]
          exact ⟨by simp,.inr ⟨trivial,r',r.tunn,hr',haddr,accepts_not_err api hacc,htunn⟩⟩
        · simp only [if_neg hsend,hcalls]
          exact ⟨by simp,.inl trivial⟩

omit hsame hnodup in
theorem searchPeers_keeps :
    (searchPeers api src datagram peers s).2.handled = s.handled ∧
      (searchPeers api src datagram peers s).2.source = s.source ∧
      (searchPeers api src datagram peers s).2.peerBySource =
        match (searchPeers api src datagram peers s).1 with
        | .found key => s.peerBySource.set src key
        | _ => s.peerBySource := by
  induction peers generalizing s with
  | nil => exact ⟨rfl,rfl,rfl⟩
  | cons peer peers ih =>
    obtain ⟨-,hb,hh,hs,-⟩ := ensurePeerRuntime_keeps api s peer
    generalize hens : ensurePeerRuntime api s peer = made at hb hh hs
    obtain ⟨ok,s₁⟩ := made
    have ht := tryAcceptDatagram_sameBut api s₁ peer.devicePublicKey src datagram
    generalize hacc : tryAcceptDatagram api s₁ peer.devicePublicKey src datagram = made at ht
    obtain ⟨result,t⟩ := made
    have ht' : t.handled = s.handled ∧ t.source = s.source ∧ t.peerBySource = s.peerBySource :=
      ⟨ht.handled.trans hh,ht.source.trans hs,ht.peerBySource.trans hb⟩
    cases ok with
    | false => simp only [searchPeers,hens]; exact ⟨hh,hs,hb⟩
    | true =>
      rcases result with _ | _ | frames
      · simpa only [searchPeers,hens,hacc] using ht'
      · obtain ⟨h₁,h₂,h₃⟩ := ih t
        simp only [searchPeers,hens,hacc]
        rw [ht'.2.2] at h₃
        exact ⟨h₁.trans ht'.1,h₂.trans ht'.2.1,h₃⟩
      · simp only [searchPeers,hens,hacc,ht'.2.2]
        exact ⟨ht'.1,ht'.2.1,trivial⟩

end Search

variable {key : String} {s : ServerState τ} {src : SocketAddr}

/-- The end of a round with a runtime that does not accept the datagram. -/
theorem acceptFrom_rejects {r : WireGuardPeerRuntime τ} (hr : s.runtimes.get key = some r)
    {datagram : List UInt8} (h : accepts api r src datagram = none) :
    let t := acceptFrom api s key src datagram
    t.calls = s.calls++(if boundTo r src then [(key,none)] else []) ∧ t.handled = s.handled ∧
      t.source = s.source ∧ t.peerBySource = s.peerBySource.remove src := by
  obtain ⟨t,ht,hbut,hcalls⟩ := tryAcceptDatagram_rejects api hr h
  simp only [acceptFrom,ht]
  exact ⟨hcalls,hbut.handled,hbut.source,by rw [hbut.peerBySource]⟩

theorem acceptFrom_accepts {r : WireGuardPeerRuntime τ} (hr : s.runtimes.get key = some r)
    {datagram : List UInt8} {d : Decoded} (h : accepts api r src datagram = some d) :
    let t := acceptFrom api s key src datagram
    t.calls = s.calls++[(key,some d.frames)] ∧ t.source = s.source ∧
      if d.outbound.length ≤ s.sends then
        t.handled = s.handled++[(key,d.frames)] ∧ t.peerBySource = s.peerBySource.set src key
      else t.handled = s.handled := by
  obtain ⟨t,r',ht,hbut,hcalls,-⟩ := tryAcceptDatagram_accepts api hr h
  by_cases hsend : d.outbound.length ≤ s.sends
  · simp only [acceptFrom,ht,if_pos hsend]
    exact ⟨hcalls,hbut.source,by rw [hbut.handled],by rw [hbut.peerBySource]⟩
  · simp only [acceptFrom,ht,if_neg hsend]
    exact ⟨hcalls,hbut.source,hbut.handled⟩

theorem matchedPeer_runtime (h : matchedPeer s src = some key) : ∃ r, s.runtimes.get key = some r :=
  (Table.contains_iff _ _).mp (Option.filter_eq_some_iff.mp h).2

theorem processedOnce_of_sourceKnown (s : ServerState τ) (e : Event τ) (t : ServerState τ)
    (hg : SourceKnown api s e) (h : runWireguardServer api s e = some t) : ProcessedOnce t := by
  cases e with
  | datagram src data peers sends =>
    simp only [runWireguardServer] at h
    split at h
    · cases h
    · next hen =>
      simp only [not_or,not_not] at hen
      have hg' := (hg.resolve_left hen.1).resolve_left (not_not.mpr hen.2)
      intro src' hsrc'
      cases hm : matchedPeer s src with
      | some key =>
        simp only [hm,Option.some.injEq] at h hg'
        obtain ⟨r,hr⟩ := matchedPeer_runtime hm
        cases hacc : accepts api r src data with
        | none =>
          obtain ⟨hcalls,-⟩ := acceptFrom_rejects api (s := newRound s src sends) hr hacc
          rw [h] at hcalls
          rw [hcalls]
          split
          · exact ⟨fun _ => List.countP_le_length,by simp [newRound]⟩
          · simp [newRound]
        | some d =>
          obtain ⟨hcalls,hsrc,hrest⟩ := acceptFrom_accepts api (s := newRound s src sends) hr hacc
          have hsend : d.outbound.length ≤ (newRound s src sends).sends := hg' r d hr hacc
          rw [if_pos hsend] at hrest
          rw [h] at hcalls hsrc hrest
          simp only [hsrc,newRound,Option.some.injEq] at hsrc'
          subst hsrc'
          simp only [hcalls,hrest.1,hrest.2,newRound]
          refine ⟨fun k => ?_,fun k frames hmem => ?_⟩
          · exact List.countP_le_length
          · simp only [List.nil_append,List.mem_singleton,Prod.mk.injEq,Option.some.injEq] at hmem
            simp [hmem.1,hmem.2]
      | none =>
        simp only [hm] at h hg'
        obtain ⟨tried,hsub,hcalls,hnot⟩ := searchPeers_rejected api s src data peers
          (newRound s src sends) (fun _ _ => rfl) hen.2 hg'
        generalize searchPeers api src data peers (newRound s src sends) = made at h hcalls hnot
        obtain ⟨result,u⟩ := made
        have htcalls : t.calls = tried.map fun k => (k,none) := by
          cases result with
          | failed => cases h; exact hcalls
          | noMatch => cases h; exact hcalls
          | found key => exact absurd rfl (hnot key)
        rw [htcalls]
        refine ⟨fun key => ?_,fun key frames hmem => ?_⟩
        · rw [List.countP_map]
          exact (List.nodup_iff_count_le_one.mp (hsub.nodup hen.2) key)
        · simp at hmem
  | sessionsChange sessions => cases h; intro src hsrc; cases hsrc
  | tunnelUse key tunn =>
    simp only [runWireguardServer] at h
    split at h
    · cases h
    · cases h; intro src hsrc; cases hsrc

/-- A round that breaks the condition loses the frames of its datagram, or passes it to
one tunnel twice. -/
theorem not_processedOnce_of_not_sourceKnown (s : ServerState τ) (e : Event τ)
    (hg : ¬ SourceKnown api s e) :
    ∃ t, runWireguardServer api s e = some t ∧ ¬ ProcessedOnce t := by
  cases e with
  | datagram src data peers sends =>
    simp only [SourceKnown,not_or,not_not] at hg
    obtain ⟨hrun,hnodup,hg⟩ := hg
    have hen : ¬ (s.ended = true ∨ ¬ (peers.map (·.devicePublicKey)).Nodup) := by
      simp only [not_or,not_not]
      exact ⟨hrun,hnodup⟩
    simp only [runWireguardServer,if_neg hen]
    cases hm : matchedPeer s src with
    | some key =>
      simp only [hm,not_forall] at hg
      obtain ⟨r,d,hr,hacc,hsend⟩ := hg
      obtain ⟨hcalls,hsrc,hrest⟩ := acceptFrom_accepts api (s := newRound s src sends) hr hacc
      have hsend' : ¬ d.outbound.length ≤ (newRound s src sends).sends := hsend
      rw [if_neg hsend'] at hrest
      refine ⟨_,rfl,fun hp => ?_⟩
      have hh := ((hp src hsrc).2 key d.frames (by simp [hcalls])).1
      rw [hrest] at hh
      cases hh
    | none =>
      simp only [hm,Bool.not_eq_false] at hg
      obtain ⟨key,frames,hmem,hcase⟩ := searchPeers_accepted api s src data peers
        (newRound s src sends) (fun _ _ => rfl) hnodup hg
      obtain ⟨hhandled,hsource,-⟩ := searchPeers_keeps api src data peers (newRound s src sends)
      generalize searchPeers api src data peers (newRound s src sends) = made
        at hmem hcase hhandled hsource
      obtain ⟨result,u⟩ := made
      rcases hcase with rfl | ⟨rfl,r,before,hr,haddr,-⟩
      · refine ⟨_,rfl,fun hp => ?_⟩
        have hh := ((hp src hsource).2 key frames hmem).1
        rw [hhandled] at hh
        cases hh
      · refine ⟨_,rfl,fun hp => ?_⟩
        have hb : boundTo r src = true := by simp [boundTo,haddr]
        obtain ⟨last,hcalls,hsrc⟩ : ∃ result, (acceptFrom api u key src data).calls =
            u.calls++[(key,result)] ∧ (acceptFrom api u key src data).source = u.source := by
          cases hacc : accepts api r src data with
          | none =>
            obtain ⟨hc,-,hs,-⟩ := acceptFrom_rejects api hr hacc
            exact ⟨none,by rw [hc,if_pos hb],hs⟩
          | some d =>
            obtain ⟨hc,hs,-⟩ := acceptFrom_accepts api hr hacc
            exact ⟨_,hc,hs⟩
        have hcount := (hp src (hsrc.trans hsource)).1 key
        have hpos : 0 < u.calls.countP (fun c => c.1 = key) :=
          List.countP_pos_iff.mpr ⟨_,hmem,by simp⟩
        have hone : [(key,last)].countP (fun c => c.1 = key) = 1 := by simp
        rw [hcalls,List.countP_append,hone] at hcount
        omega
  | sessionsChange sessions => exact absurd trivial hg
  | tunnelUse key tunn => exact absurd trivial hg

/-- In a run of the listener every datagram is processed once exactly when every datagram
from a source without a mapped runtime is accepted by no provisioned peer, and what an
accepted datagram of a mapped source has to send can be sent. -/
theorem processedOnce_iff_sourceKnown (events : List (Event τ)) :
    Along (runWireguardServer api) ProcessedOnce (start τ) events ↔
      Meets (runWireguardServer api) (SourceKnown api) (start τ) events :=
  along_iff_meets (I := ProcessedOnce) (fun _ h => h)
    (fun s e t _ hg h => processedOnce_of_sourceKnown api s e t hg h)
    (fun s e _ hg => not_processedOnce_of_not_sourceKnown api s e hg)
    (by intro src h; cases h)

/-- Replay protection: a tunnel remembers what it accepted and refuses later copies. -/
structure ReplayProtected (seen : τ → List UInt8 → Prop) : Prop where
  remembers : ∀ t ip d, (api.decapsulate t ip d).1 ≠ .err → seen (api.decapsulate t ip d).2 d
  keeps : ∀ t d, seen t d → seen (api.flush t).2 d
  refuses : ∀ t ip d, seen t d → (api.decapsulate t ip d).1 = .err

/-- A tunnel that passes every datagram on as an IP packet, once. -/
def onceTunn : TunnApi (List (List UInt8)) where
  base64 _ := some (List.replicate 32 0)
  new _ _ := []
  decapsulate seen _ datagram :=
    if datagram ∈ seen then (.err,seen) else (.writeToTunnel datagram,datagram::seen)
  flush seen := ([],seen)

theorem onceTunn_replayProtected : ReplayProtected onceTunn fun seen d => d ∈ seen := by
  refine ⟨fun t ip d h => ?_,fun t d h => h,fun t ip d h => by simp [onceTunn,h]⟩
  by_cases hd : d ∈ t <;> simp_all [onceTunn]

/-- The first datagram of a client is passed to its tunnel twice: the frame decoded by the
first call is thrown away, the second call is refused, and the source is forgotten. -/
theorem first_datagram_lost :
    let src : SocketAddr := ⟨.v4 ⟨192,0,2,1⟩,51820⟩
    let frame : SessionFrame := ⟨⟨1,0,0⟩,[7]⟩
    let peer : WireGuardPeer := ⟨"dev","wg",⟨100,64,1,1⟩,0⟩
    ReplayProtected onceTunn (fun seen d => d ∈ seen) ∧
      ∃ s, exec (runWireguardServer onceTunn) (start _)
          [.datagram src ([0x45]++List.replicate 19 0++encode frame) [peer] 9] = some s ∧
        s.calls = [("dev",some [frame]),("dev",none)] ∧ s.handled = [] ∧
        s.peerBySource.get src = none ∧ ¬ ProcessedOnce s := by
  refine ⟨onceTunn_replayProtected,_,rfl,by decide,by decide,by decide,fun h => ?_⟩
  exact absurd ((h ⟨.v4 ⟨192,0,2,1⟩,51820⟩ (by decide)).1 "dev") (by decide)

end Bonded.WireGuardDelivery
