import Mathlib.Data.List.Induction

/-! Runs of a machine whose transitions are given by a partial step function.
An event carries every choice of the environment, so `step s e = none` says
exactly that `e` cannot happen in `s`. -/
namespace Bonded.Machine

variable {σ ε τ : Type}

/-- Execute the events in order; `none` as soon as one of them is not enabled. -/
def exec (step : σ → ε → Option σ) : σ → List ε → Option σ
  | s, [] => some s
  | s, e::es => (step s e).bind fun t => exec step t es

@[simp] theorem exec_nil (step : σ → ε → Option σ) (s : σ) : exec step s [] = some s := rfl

variable {e : ε} {es fs : List ε} {s u t : σ} {step : σ → ε → Option σ} {G : σ → ε → Prop}
  {I P : σ → Prop} {A : ε → Prop}

theorem exec_cons :
    exec step s (e::es) = some u ↔ ∃ t, step s e = some t ∧ exec step t es = some u := by
  simp [exec,Option.bind_eq_some_iff]

theorem exec_append :
    exec step s (es++fs) = some u ↔ ∃ t, exec step s es = some t ∧ exec step t fs = some u := by
  induction es generalizing s with
  | nil => simp
  | cons e es ih =>
    simp only [List.cons_append,exec_cons,ih]
    constructor
    · rintro ⟨a,ha,t,ht,hu⟩
      exact ⟨t,⟨a,ha,ht⟩,hu⟩
    · rintro ⟨t,⟨a,ha,ht⟩,hu⟩
      exact ⟨a,ha,t,ht,hu⟩

theorem exec_total (h : ∀ s e, ∃ t, step s e = some t) (s : σ) (es : List ε) :
    ∃ t, exec step s es = some t := by
  induction es generalizing s with
  | nil => exact ⟨s,rfl⟩
  | cons e es ih =>
    obtain ⟨t,ht⟩ := h s e
    obtain ⟨u,hu⟩ := ih t
    exact ⟨u,exec_cons.mpr ⟨t,ht,hu⟩⟩

/-- The events lead from `s` to `t`, no other event is ever enabled on the way, and none in `t`. -/
def OnlyRun (step : σ → ε → Option σ) (t : σ) : σ → List ε → Prop
  | s, [] => s = t ∧ ∀ e, step s e = none
  | s, e::es => (∀ f, f ≠ e → step s f = none) ∧ ∃ u, step s e = some u ∧ OnlyRun step t u es

theorem OnlyRun.exec (h : OnlyRun step t s es) :
    exec step s es = some t ∧ ∀ e, step t e = none := by
  induction es generalizing s with
  | nil => exact ⟨congrArg some h.1,h.1 ▸ h.2⟩
  | cons e es ih =>
    obtain ⟨-,u,hu,hrest⟩ := h
    exact ⟨exec_cons.mpr ⟨u,hu,(ih hrest).1⟩,(ih hrest).2⟩

/-- Every run is a part of the only run, and the ones that cannot go on end where it ends. -/
theorem OnlyRun.unique (h : OnlyRun step t s es) (hfs : Machine.exec step s fs = some u) :
    fs.length ≤ es.length ∧ ((∀ e, step u e = none) → u = t) := by
  induction es generalizing s fs with
  | nil =>
    cases fs with
    | nil => cases hfs; exact ⟨Nat.le_refl _,fun _ => h.1⟩
    | cons f fs =>
      obtain ⟨v,hv,-⟩ := exec_cons.mp hfs
      rw [h.2 f] at hv
      cases hv
  | cons e es ih =>
    obtain ⟨hother,v,hv,hrest⟩ := h
    cases fs with
    | nil =>
      cases hfs
      refine ⟨Nat.zero_le _,fun hstuck => ?_⟩
      rw [hstuck e] at hv
      cases hv
    | cons f fs =>
      obtain ⟨w,hw,hfs⟩ := exec_cons.mp hfs
      have hfe : f = e := by
        by_contra hne
        rw [hother f hne] at hw
        cases hw
      subst hfe
      rw [hv] at hw
      cases hw
      exact ⟨Nat.succ_le_succ (ih hrest hfs).1,(ih hrest hfs).2⟩

/-- What no round of a loop changes, the loop does not change. -/
theorem foldl_keeps {α β : Type} (p : σ → β) {f : σ → α → σ} (h : ∀ t a, p (f t a) = p t)
    (xs : List α) (s : σ) : p (xs.foldl f s) = p s := by
  induction xs generalizing s with
  | nil => rfl
  | cons x xs ih => rw [List.foldl_cons,ih,h]

/-- Every event of the run meets the condition `G` in the state just before it. -/
def Meets (step : σ → ε → Option σ) (G : σ → ε → Prop) : σ → List ε → Prop
  | _, [] => True
  | s, e::es => G s e ∧ ∀ t, step s e = some t → Meets step G t es

instance decidableNext (o : Option σ) (p : σ → Prop) [DecidablePred p] :
    Decidable (∀ t, o = some t → p t) :=
  match o with
  | none => isTrue (by simp)
  | some t => decidable_of_iff (p t) (by simp)

instance decidableMeets (step : σ → ε → Option σ) (G : σ → ε → Prop)
    [∀ s e, Decidable (G s e)] : ∀ s es, Decidable (Meets step G s es)
  | _, [] => isTrue trivial
  | s, e::es =>
    have : ∀ t, Decidable (Meets step G t es) := fun t => decidableMeets step G t es
    inferInstanceAs (Decidable (G s e ∧ ∀ t, step s e = some t → Meets step G t es))

theorem meets_append (hes : exec step s es = some t) (h : Meets step G s (es++fs)) :
    Meets step G s es ∧ Meets step G t fs := by
  induction es generalizing s with
  | nil =>
    simp only [exec_nil,Option.some.injEq] at hes
    subst hes
    exact ⟨trivial,h⟩
  | cons e es ih =>
    obtain ⟨a,ha,hat⟩ := exec_cons.mp hes
    obtain ⟨hg,hrest⟩ := h
    have hh := ih hat (hrest a ha)
    refine ⟨⟨hg,?_⟩,hh.2⟩
    intro b hb
    rw [ha] at hb
    cases hb
    exact hh.1

theorem Meets.mono {H : σ → ε → Prop} (h : ∀ s e, G s e → H s e) (hg : Meets step G s es) :
    Meets step H s es := by
  induction es generalizing s with
  | nil => trivial
  | cons e es ih => exact ⟨h s e hg.1,fun t ht => ih (hg.2 t ht)⟩

theorem meets_congr {H : σ → ε → Prop} (h : ∀ s e, G s e ↔ H s e) :
    Meets step G s es ↔ Meets step H s es := by
  have heq : G = H := by
    funext s e
    exact propext (h s e)
  rw [heq]

theorem exec_invariant (hstep : ∀ s e t, I s → G s e → step s e = some t → I t) (hs : I s)
    (hg : Meets step G s es) (h : exec step s es = some t) : I t := by
  induction es generalizing s with
  | nil => simp only [exec_nil,Option.some.injEq] at h; exact h ▸ hs
  | cons e es ih =>
    obtain ⟨a,ha,hat⟩ := exec_cons.mp h
    exact ih (hstep s e a hs hg.1 ha) (hg.2 a ha) hat

theorem exec_of_meets (hstep : ∀ s e, I s → G s e → ∃ t, step s e = some t ∧ I t) (hs : I s)
    (hg : Meets step G s es) : ∃ t, exec step s es = some t ∧ I t := by
  induction es generalizing s with
  | nil => exact ⟨s,rfl,hs⟩
  | cons e es ih =>
    obtain ⟨t,ht,hi⟩ := hstep s e hs hg.1
    obtain ⟨u,hu,hiu⟩ := ih hi (hg.2 t ht)
    exact ⟨u,exec_cons.mpr ⟨t,ht,hu⟩,hiu⟩

theorem Meets.of_append (h : Meets step G s (es++fs)) : Meets step G s es := by
  induction es generalizing s with
  | nil => trivial
  | cons e es ih => exact ⟨h.1,fun t ht => ih (h.2 t ht)⟩

/-- Machines that agree on the steps of a run agree on the run. -/
theorem exec_congr {step' : σ → ε → Option σ} (heq : ∀ s e, I s → G s e → step s e = step' s e)
    (hstep : ∀ s e t, I s → G s e → step s e = some t → I t) (hs : I s) (hg : Meets step G s es) :
    exec step s es = exec step' s es := by
  induction es generalizing s with
  | nil => rfl
  | cons e es ih =>
    simp only [exec,← heq s e hs hg.1]
    cases ht : step s e with
    | none => rfl
    | some t => exact ih (hstep s e t hs hg.1 ht) (hg.2 t ht)

/-- The property `P` holds in every state the run passes through. -/
def Along (step : σ → ε → Option σ) (P : σ → Prop) (s : σ) (es : List ε) : Prop :=
  ∀ done t, done <+: es → exec step s done = some t → P t

/-- A condition that keeps an invariant gives what follows from it all along the run. -/
theorem along_of_meets (hP : ∀ s, I s → P s)
    (hstep : ∀ s e t, I s → G s e → step s e = some t → I t) (hs : I s) (hm : Meets step G s es) :
    Along step P s es := by
  intro done t hdone ht
  obtain ⟨rest,rfl⟩ := hdone
  exact hP t (exec_invariant hstep hs (meets_append ht hm).1 ht)

/-- The property `P` holds of every step the run makes. -/
def Transitions (step : σ → ε → Option σ) (P : σ → ε → σ → Prop) (s : σ) (es : List ε) : Prop :=
  ∀ done e t u, done++[e] <+: es → exec step s done = some t → step t e = some u → P t e u

theorem transitions_of_meets {P : σ → ε → σ → Prop}
    (hstep : ∀ s e t, I s → G s e → step s e = some t → I t ∧ P s e t) (hs : I s)
    (hm : Meets step G s es) : Transitions step P s es := by
  intro done e t u hdone ht hu
  obtain ⟨rest,rfl⟩ := hdone
  rw [List.append_assoc] at hm
  obtain ⟨hbefore,hafter⟩ := meets_append ht hm
  have hi := exec_invariant (fun s e t hi hg h => (hstep s e t hi hg h).1) hs hbefore ht
  exact (hstep t e u hi hafter.1 hu).2

/-- A condition that is broken only by steps without the property `P` holds of every run whose
steps have it. -/
theorem meets_of_transitions {P : σ → ε → σ → Prop}
    (hbad : ∀ s e, ¬ G s e → ∃ t, step s e = some t ∧ ¬ P s e t) (h : Transitions step P s es) :
    Meets step G s es := by
  induction es generalizing s with
  | nil => trivial
  | cons e es ih =>
    have hg : G s e := by
      by_contra hg
      obtain ⟨t,ht,hnot⟩ := hbad s e hg
      exact hnot (h [] e s t (by simp) rfl ht)
    refine ⟨hg,fun t ht => ih ?_⟩
    intro done e' u v hdone hu hv
    exact h (e::done) e' u v (List.cons_prefix_cons.mpr ⟨rfl,hdone⟩) (exec_cons.mpr ⟨t,ht,hu⟩) hv

/-- The condition is exact when it keeps an invariant that implies `P` and the first event
that breaks the condition breaks `P` too. -/
theorem along_iff_meets (hP : ∀ s, I s → P s)
    (hstep : ∀ s e t, I s → G s e → step s e = some t → I t)
    (hbad : ∀ s e, I s → ¬ G s e → ∃ t, step s e = some t ∧ ¬ P t) (hs : I s) :
    Along step P s es ↔ Meets step G s es := by
  constructor
  · intro h
    induction es generalizing s with
    | nil => trivial
    | cons e es ih =>
      have hg : G s e := by
        by_contra hg
        obtain ⟨t,ht,hnot⟩ := hbad s e hs hg
        exact hnot (h [e] t (by simp) (by simp [exec,ht]))
      refine ⟨hg,fun t ht => ih (hstep s e t hs hg ht) ?_⟩
      intro done u hdone hu
      exact h (e::done) u (List.cons_prefix_cons.mpr ⟨rfl,hdone⟩) (exec_cons.mpr ⟨t,ht,hu⟩)
  · exact along_of_meets hP hstep hs

theorem meets_true (step : σ → ε → Option σ) (s : σ) (es : List ε) :
    Meets step (fun _ _ => True) s es := by
  induction es generalizing s with
  | nil => trivial
  | cons e es ih => exact ⟨trivial,fun t _ => ih t⟩

/-- The unconditional form of `exec_invariant`. -/
theorem exec_preserves (hstep : ∀ s e t, I s → step s e = some t → I t) (hs : I s)
    (h : exec step s es = some t) : I t :=
  exec_invariant (G:=fun _ _ => True) (fun s e t hi _ => hstep s e t hi) hs (meets_true step s es) h

theorem meets_and {Q : ε → Prop} (hg : Meets step G s es) (hq : ∀ e ∈ es, Q e) :
    Meets step (fun s e => G s e ∧ Q e) s es := by
  induction es generalizing s with
  | nil => trivial
  | cons e es ih =>
    exact ⟨⟨hg.1,hq e (by simp)⟩,fun t ht => ih (hg.2 t ht) fun x hx => hq x (by simp [hx])⟩

theorem meets_of_invariant {Q : ε → Prop}
    (hstep : ∀ s e t, I s → Q e → step s e = some t → I t ∧ G s e) (hs : I s) (hq : ∀ e ∈ es, Q e)
    (h : exec step s es = some t) : Meets step G s es := by
  induction es generalizing s with
  | nil => trivial
  | cons e es ih =>
    obtain ⟨a,ha,hat⟩ := exec_cons.mp h
    have hh := hstep s e a hs (hq e (by simp)) ha
    refine ⟨hh.2,fun b hb => ?_⟩
    rw [ha] at hb
    cases hb
    exact ih hh.1 (fun x hx => hq x (by simp [hx])) hat

/-- The property `P` holds in some state the run passes through. -/
def Sometime (step : σ → ε → Option σ) (P : σ → Prop) (s : σ) (es : List ε) : Prop :=
  ∃ done t, done <+: es ∧ exec step s done = some t ∧ P t

theorem sometime_append (h : Sometime step P s es) (fs : List ε) : Sometime step P s (es++fs) := by
  obtain ⟨done,t,hdone,ht,hp⟩ := h
  exact ⟨done,t,hdone.trans (List.prefix_append es fs),ht,hp⟩

theorem sometime_now (h : exec step s es = some t) (hp : P t) : Sometime step P s es :=
  ⟨es,t,List.prefix_refl _,h,hp⟩

/-- Induction over a run with its history: what holds at the start and is kept by one more
event holds at the end. -/
theorem exec_history {P : List ε → σ → Prop} (hs : P [] s)
    (hstep : ∀ es t e u, exec step s es = some t → P es t → step t e = some u → P (es++[e]) u)
    (h : exec step s es = some t) : P es t := by
  induction es using List.reverseRecOn generalizing t with
  | nil =>
    simp only [exec_nil,Option.some.injEq] at h
    exact h ▸ hs
  | append_singleton es e ih =>
    obtain ⟨u,hu,hut⟩ := exec_append.mp h
    obtain ⟨v,hv,hvt⟩ := exec_cons.mp hut
    simp only [exec_nil,Option.some.injEq] at hvt
    subst hvt
    exact hstep es u e v hu (ih hu) hv

theorem meets_snoc (hes : exec step s es = some t) (h : Meets step G s es) (hg : G t e) :
    Meets step G s (es++[e]) := by
  induction es generalizing s with
  | nil =>
    simp only [exec_nil,Option.some.injEq] at hes
    exact ⟨hes ▸ hg,fun _ _ => trivial⟩
  | cons a es ih =>
    obtain ⟨b,hb,hbt⟩ := exec_cons.mp hes
    refine ⟨h.1,fun c hc => ?_⟩
    rw [hb] at hc
    cases hc
    exact ih hbt (h.2 b hb)

theorem along_snoc (h : Along step P s es) (hes : exec step s (es++[e]) = some t) (hp : P t) :
    Along step P s (es++[e]) := by
  intro done u hdone hu
  rcases List.prefix_concat_iff.mp hdone with rfl | hdone
  · rw [hes,Option.some.injEq] at hu
    exact hu ▸ hp
  · exact h done u hdone hu

/-- Some event of the run had the property `U`; since then all states had `K` and all events
had `Q`. -/
def Since (step : σ → ε → Option σ) (U : σ → ε → Prop) (K : σ → Prop) (Q : σ → ε → Prop) (s : σ)
    (es : List ε) : Prop :=
  ∃ pre e post u v, es = pre++e::post ∧ exec step s pre = some u ∧ U u e ∧ step u e = some v ∧
    Along step K v post ∧ Meets step Q v post

theorem since_now {U : σ → ε → Prop} {K : σ → Prop} {Q : σ → ε → Prop}
    (hes : exec step s es = some t) (he : U t e) (ht : step t e = some u) (hk : K u) :
    Since step U K Q s (es++[e]) := by
  refine ⟨es,e,[],t,u,rfl,hes,he,ht,?_,trivial⟩
  intro done v hdone hv
  rw [List.prefix_nil.mp hdone,exec_nil,Option.some.injEq] at hv
  exact hv ▸ hk

theorem since_later {U : σ → ε → Prop} {K : σ → Prop} {Q : σ → ε → Prop} (h : Since step U K Q s es)
    (hes : exec step s es = some t) (hq : Q t e) (ht : step t e = some u) (hk : K u) :
    Since step U K Q s (es++[e]) := by
  obtain ⟨pre,a,post,b,c,rfl,hpre,ha,hbc,halong,hmeets⟩ := h
  have hpost : exec step c post = some t := by
    obtain ⟨b',hb',hrest⟩ := exec_append.mp hes
    rw [hpre] at hb'
    cases hb'
    obtain ⟨c',hc',hrest⟩ := exec_cons.mp hrest
    rw [hbc] at hc'
    cases hc'
    exact hrest
  refine ⟨pre,a,post++[e],b,c,by simp,hpre,ha,hbc,?_,meets_snoc hpost hmeets hq⟩
  exact along_snoc halong (exec_append.mpr ⟨t,hpost,exec_cons.mpr ⟨u,ht,rfl⟩⟩) hk

/-- Some event had the property `U`, and no later one has `V`. -/
def Standing (U V : ε → Prop) (es : List ε) : Prop :=
  ∃ before e after, es = before++e::after ∧ U e ∧ ∀ a ∈ after, ¬ V a

theorem not_standing_nil {U V : ε → Prop} : ¬ Standing U V [] := by
  rintro ⟨before,e,after,heq,-⟩
  simp at heq

theorem standing_snoc {U V : ε → Prop} :
    Standing U V (es++[e]) ↔ U e ∨ Standing U V es ∧ ¬ V e := by
  constructor
  · rintro ⟨before,a,after,heq,ha,hafter⟩
    rcases List.eq_nil_or_concat after with rfl | ⟨rest,last,rfl⟩
    · obtain ⟨-,hlast⟩ := List.append_inj' heq rfl
      exact .inl (List.singleton_inj.mp hlast ▸ ha)
    · rw [List.concat_eq_append,← List.cons_append,← List.append_assoc] at heq
      obtain ⟨hes,hlast⟩ := List.append_inj' heq rfl
      refine .inr ⟨⟨before,a,rest,hes,ha,fun x hx => hafter x (by simp [hx])⟩,?_⟩
      exact List.singleton_inj.mp hlast ▸ hafter last (by simp)
  · rintro (he | ⟨⟨before,a,after,rfl,ha,hafter⟩,he⟩)
    · exact ⟨es,e,[],rfl,he,by simp⟩
    · refine ⟨before,a,after++[e],by simp,ha,fun x hx => ?_⟩
      rcases List.mem_append.mp hx with hx | hx
      · exact hafter x hx
      · exact List.mem_singleton.mp hx ▸ he

/-- Some run of events that meet `A` leads from `s` to `t`. -/
def Reaches (step : σ → ε → Option σ) (A : ε → Prop) (s t : σ) : Prop :=
  ∃ es, (∀ e ∈ es, A e) ∧ exec step s es = some t

theorem Reaches.refl (step : σ → ε → Option σ) (A : ε → Prop) (s : σ) : Reaches step A s s :=
  ⟨[],by simp,rfl⟩

theorem Reaches.head (e : ε) (he : A e) (ht : step s e = some t) (h : Reaches step A t u) :
    Reaches step A s u := by
  obtain ⟨es,hes,hrun⟩ := h
  exact ⟨e::es,List.forall_mem_cons.mpr ⟨he,hes⟩,exec_cons.mpr ⟨t,ht,hrun⟩⟩

theorem Reaches.trans (h : Reaches step A s t) (h' : Reaches step A t u) : Reaches step A s u := by
  obtain ⟨es,hes,hrun⟩ := h
  obtain ⟨fs,hfs,hrun'⟩ := h'
  exact ⟨es++fs,List.forall_mem_append.mpr ⟨hes,hfs⟩,exec_append.mpr ⟨t,hrun,hrun'⟩⟩

theorem Reaches.invariant (hstep : ∀ s e t, I s → A e → step s e = some t → I t)
    (h : Reaches step A s t) (hs : I s) : I t := by
  obtain ⟨es,hes,hrun⟩ := h
  induction es generalizing s with
  | nil =>
    simp only [exec_nil,Option.some.injEq] at hrun
    exact hrun ▸ hs
  | cons e es ih =>
    obtain ⟨a,ha,hat⟩ := exec_cons.mp hrun
    obtain ⟨he,hes⟩ := List.forall_mem_cons.mp hes
    exact ih (hstep s e a hs he ha) hes hat

/-- Events that do not matter to an observer can be erased from a run: the observer's
relation `R` is kept by erasing them and by following the others. -/
theorem exec_erase {R : σ → σ → Prop} {keep : ε → Bool}
    (hfollow : ∀ s u e t, R s u → G s e → keep e = true → step s e = some t →
      ∃ v, step u e = some v ∧ R t v)
    (herase : ∀ s u e t, R s u → G s e → keep e = false → step s e = some t → R t u) (hr : R s u)
    (hg : Meets step G s es) (h : exec step s es = some t) :
    ∃ v, exec step u (es.filter keep) = some v ∧ R t v := by
  induction es generalizing s u with
  | nil =>
    simp only [exec_nil,Option.some.injEq] at h
    exact ⟨u,rfl,h ▸ hr⟩
  | cons e es ih =>
    obtain ⟨a,ha,hat⟩ := exec_cons.mp h
    cases hk : keep e with
    | true =>
      obtain ⟨v,hv,hrv⟩ := hfollow s u e a hr hg.1 hk ha
      obtain ⟨w,hw,hrw⟩ := ih hrv (hg.2 a ha) hat
      rw [List.filter_cons_of_pos hk]
      exact ⟨w,exec_cons.mpr ⟨v,hv,hw⟩,hrw⟩
    | false =>
      rw [List.filter_cons_of_neg (by simp [hk])]
      exact ih (herase s u e a hr hg.1 hk ha) (hg.2 a ha) hat

end Bonded.Machine
