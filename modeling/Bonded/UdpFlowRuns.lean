import Bonded.UdpFlowTable

/-! Whole runs of the UDP flow table: what holds in every interleaving of its tasks and pumps,
and what holds when they stay out of each other's way. -/
namespace Bonded.UdpFlowTable

open Machine Session
open ServerSession (UdpFlowKey)

/-- The flow at the place has this key and a pump of this kind. -/
def Has (flows : List Flow) (q : Pump → Bool) (handle : ℕ) (key : UdpFlowKey) : Prop :=
  ∃ flow, flows[handle]? = some flow ∧ flow.key = key ∧ q flow.pump = true

/-- The task at the place has this key and is concerned with the flow in the way `r` says. -/
def Doing (tasks : List Task) (r : Phase → Option ℕ) (i handle : ℕ) (key : UdpFlowKey) : Prop :=
  ∃ task, tasks[i]? = some task ∧ r task.phase = some handle ∧ task.key = key

section Places

variable {flows : List Flow} {tasks : List Task} {q : Pump → Bool} {r : Phase → Option ℕ}

theorem Has.get {h : ℕ} {key : UdpFlowKey} {flow : Flow} (hhas : Has flows q h key)
    (hflow : flows[h]? = some flow) : flow.key = key ∧ q flow.pump = true := by
  obtain ⟨other,hother,hkey,hq⟩ := hhas
  rw [hflow,Option.some.injEq] at hother
  subst hother
  exact ⟨hkey,hq⟩

theorem Doing.get {i h : ℕ} {key : UdpFlowKey} {task : Task} (hdoing : Doing tasks r i h key)
    (htask : tasks[i]? = some task) : r task.phase = some h ∧ task.key = key := by
  obtain ⟨other,hother,hr,hkey⟩ := hdoing
  rw [htask,Option.some.injEq] at hother
  subst hother
  exact ⟨hr,hkey⟩

theorem has_set {h : ℕ} {old new : Flow} (hold : flows[h]? = some old) (hkey : new.key = old.key)
    (j : ℕ) (key : UdpFlowKey) : Has (flows.set h new) q j key ↔
      if j = h then old.key = key ∧ q new.pump = true else Has flows q j key := by
  obtain ⟨hlt,-⟩ := List.getElem?_eq_some_iff.mp hold
  by_cases hj : j = h
  · subst hj
    simp [Has,hlt,hkey]
  · simp [Has,List.getElem?_set_ne (Ne.symm hj),hj]

/-- A change that does not concern the kind of pump in question. -/
theorem has_set_same {h : ℕ} {old new : Flow} (hold : flows[h]? = some old)
    (hkey : new.key = old.key) (hq : q new.pump = q old.pump) (j : ℕ) (key : UdpFlowKey) :
    Has (flows.set h new) q j key ↔ Has flows q j key := by
  rw [has_set hold hkey]
  split
  · rename_i hj
    subst hj
    simp [Has,hold,hq]
  · exact Iff.rfl

theorem modify_eq_set {h : ℕ} {old : Flow} (hold : flows[h]? = some old) (f : Flow → Flow) :
    flows.modify h f = flows.set h (f old) := by
  apply List.ext_getElem?
  intro j
  rw [List.getElem?_modify,List.getElem?_set]
  by_cases hj : h = j
  · subst hj
    obtain ⟨hlt,heq⟩ := List.getElem?_eq_some_iff.mp hold
    simp [hlt,heq]
  · simp [hj]

theorem has_modify_same {h : ℕ} {f : Flow → Flow} (hkey : ∀ flow, (f flow).key = flow.key)
    (hpump : ∀ flow, (f flow).pump = flow.pump) (j : ℕ) (key : UdpFlowKey) :
    Has (flows.modify h f) q j key ↔ Has flows q j key := by
  cases hold : flows[h]? with
  | none =>
    rw [List.modify_eq_self (List.getElem?_eq_none_iff.mp hold)]
  | some old =>
    rw [modify_eq_set hold]
    exact has_set_same hold (hkey old) (congrArg q (hpump old)) j key

theorem has_updateState (task : Task) (now h j : ℕ) (key : UdpFlowKey) :
    Has (flows.modify h (task.updateState now)) q j key ↔ Has flows q j key := by
  refine has_modify_same ?_ ?_ j key
  · intro flow
    rfl
  · intro flow
    rfl

theorem has_append (new : Flow) (j : ℕ) (key : UdpFlowKey) : Has (flows++[new]) q j key ↔
    Has flows q j key ∨ j = flows.length ∧ new.key = key ∧ q new.pump = true := by
  rcases Nat.lt_trichotomy j flows.length with hj | hj | hj
  · simp [Has,List.getElem?_append_left hj,Nat.ne_of_lt hj]
  · subst hj
    simp [Has]
  · have hnone : (flows++[new])[j]? = none := by
      apply List.getElem?_eq_none
      simp
      omega
    have hnone' : flows[j]? = none := List.getElem?_eq_none (Nat.le_of_lt hj)
    simp [Has,hnone,hnone',Nat.ne_of_gt hj]

theorem doing_set {i : ℕ} {task : Task} (htask : tasks[i]? = some task) (phase : Phase)
    (j h : ℕ) (key : UdpFlowKey) :
    Doing (tasks.set i {task with phase := phase}) r j h key ↔
      if j = i then r phase = some h ∧ task.key = key else Doing tasks r j h key := by
  obtain ⟨hlt,-⟩ := List.getElem?_eq_some_iff.mp htask
  by_cases hj : j = i
  · subst hj
    simp [Doing,hlt,Task.key]
  · simp [Doing,List.getElem?_set_ne (Ne.symm hj),hj]

theorem doing_set_same {i : ℕ} {task : Task} (htask : tasks[i]? = some task) {phase : Phase}
    (hr : r phase = r task.phase) (j h : ℕ) (key : UdpFlowKey) :
    Doing (tasks.set i {task with phase := phase}) r j h key ↔ Doing tasks r j h key := by
  rw [doing_set htask]
  split
  · rename_i hj
    subst hj
    simp [Doing,htask,hr]
  · exact Iff.rfl

theorem doing_append {task : Task} (hr : r task.phase = none) (j h : ℕ) (key : UdpFlowKey) :
    Doing (tasks++[task]) r j h key ↔ Doing tasks r j h key := by
  rcases Nat.lt_trichotomy j tasks.length with hj | hj | hj
  · simp [Doing,List.getElem?_append_left hj]
  · subst hj
    simp [Doing,hr]
  · have hnone : (tasks++[task])[j]? = none := by
      apply List.getElem?_eq_none
      simp
      omega
    have hnone' : tasks[j]? = none := List.getElem?_eq_none (Nat.le_of_lt hj)
    simp [Doing,hnone,hnone']

end Places

/-- The pump will be spawned by this task. -/
def Pump.awaits (i : ℕ) (pump : Pump) : Bool := pump = .unspawned i

/-- What holds in every run: the map has exactly the flows whose pump has not taken them out,
and each flow without a pump has its task. -/
structure Mapped (s : State) : Prop where
  map : ∀ key h, s.flowMap.get key = some h ↔ Has s.flows Pump.mapped h key
  registering : ∀ i h key,
    Doing s.tasks Phase.registers i h key ↔ Has s.flows (Pump.awaits i) h key

theorem start_mapped : Mapped start where
  map key h := by simp [start,Has]
  registering i h key := by simp [start,Has,Doing]

theorem Pump.mapped_of_running {pump : Pump} (h : pump.running = true) : pump.mapped = true := by
  cases pump <;> simp_all [Pump.running,Pump.mapped]

theorem Pump.tracked_of_running {pump : Pump} (h : pump.running = true) :
    pump.tracked = true := by
  cases pump <;> simp_all [Pump.running,Pump.tracked]

theorem Pump.awaits_of_running {pump : Pump} (h : pump.running = true) (i : ℕ) :
    pump.awaits i = false := by
  cases pump <;> simp_all [Pump.running,Pump.awaits]

variable {h i : ℕ} {new flow : Flow} {s t : State} {read : Read} {bound : String}

section

variable (hs : Mapped s)
include hs

/-- A change of one flow that leaves it in the map, or out of it, and has nothing to do with
its spawning. -/
theorem Mapped.setFlow {old : Flow} (hold : s.flows[h]? = some old)
    (hkey : new.key = old.key) (hmapped : new.pump.mapped = old.pump.mapped)
    (hawaits : ∀ i, new.pump.awaits i = old.pump.awaits i) (tracker : Tracker) :
    Mapped {s.setFlow h new with tracker := tracker} where
  map key j := (hs.map key j).trans (has_set_same hold hkey hmapped j key).symm
  registering i j key :=
    (hs.registering i j key).trans (has_set_same hold hkey (hawaits i) j key).symm

omit hs in
theorem stamp_running (flow : Flow) (datagram : List UInt8) :
    (flow.stamp datagram).pump.running = true := by
  simp only [Flow.stamp]
  split <;> rfl

/-- The pump takes its own flow out of the map, as the map has no other one of its key. -/
theorem Mapped.unmap (hflow : s.flows[h]? = some flow)
    (hpump : flow.pump = .unmapping) : Mapped {s.setFlow h {flow with pump := .untracking} with
      flowMap := s.flowMap.remove flow.key} := by
  have hget : s.flowMap.get flow.key = some h :=
    (hs.map _ _).mpr ⟨flow,hflow,rfl,by rw [hpump]; rfl⟩
  refine ⟨?_,?_⟩
  · intro key j
    simp only [State.setFlow]
    rw [has_set hflow (by rfl),Table.get_remove]
    by_cases hj : j = h
    · subst hj
      have hother : key ≠ flow.key → ¬ Has s.flows Pump.mapped j key :=
        fun hkey hhas => hkey (hhas.get hflow).1.symm
      by_cases hkey : key = flow.key
      · simp [hkey,Pump.mapped]
      · simp [hkey,hs.map,hother hkey,Pump.mapped]
    · have hother : ¬ Has s.flows Pump.mapped j flow.key := by
        rw [← hs.map,hget,Option.some.injEq]
        exact Ne.symm hj
      by_cases hkey : key = flow.key
      · subst hkey
        simp [hj,hother]
      · simp [hj,hkey,hs.map]
  · intro i j key
    refine (hs.registering i j key).trans (has_set_same hflow (by rfl) ?_ j key).symm
    simp [hpump,Pump.awaits]

theorem Mapped.pump (hflow : s.flows[h]? = some flow)
    (ht : PumpMoves s h flow read t) : Mapped t := by
  -- a pump that is still in its loop keeps the flow as it is in the map
  have hloop : ∀ new : Flow, new.key = flow.key → flow.pump.running = true →
      new.pump.running = true → ∀ tracker,
      Mapped {s.setFlow h new with tracker := tracker} := by
    intro new hkey hrunning hnew tracker
    refine hs.setFlow hflow hkey ?_ ?_ tracker
    · rw [Pump.mapped_of_running hnew,Pump.mapped_of_running hrunning]
    · intro i
      rw [Pump.awaits_of_running hnew,Pump.awaits_of_running hrunning]
  cases ht with
  | loop pump hrunning hpump htouching => exact hloop _ (by rfl) hrunning hpump s.tracker
  | stamp datagram hpump =>
    exact hloop _ (by rfl) (by simp [hpump,Pump.running]) (stamp_running flow datagram) s.tracker
  | respond frame hpump => exact hloop _ (by rfl) (by simp [hpump,Pump.running]) (by rfl) _
  | leave tracker hrunning hleaves htracker =>
    refine hs.setFlow hflow (by rfl) ?_ ?_ tracker
    · exact (Pump.mapped_of_running hrunning).symm
    · intro i
      rw [Pump.awaits_of_running hrunning]
      rfl
  | unmap hpump => exact hs.unmap hflow hpump
  | untrack hpump =>
    refine hs.setFlow hflow (by rfl) ?_ ?_ _
    · rw [hpump]
      rfl
    · intro i
      simp [hpump,Pump.awaits]

theorem Mapped.setPhase {task : Task} (phase : Phase)
    (htask : s.tasks[i]? = some task) (hregisters : phase.registers = task.phase.registers)
    (htasks : t.tasks = s.tasks.set i {task with phase := phase}) (hmap : t.flowMap = s.flowMap)
    (hflows : ∀ q j key, Has t.flows q j key ↔ Has s.flows q j key) : Mapped t where
  map key j := by rw [hmap,hs.map,hflows]
  registering j h key := by rw [htasks,doing_set_same htask hregisters,hs.registering,hflows]

theorem Mapped.insert {task : Task} {createdAt : ℕ}
    (htask : s.tasks[i]? = some task) (hphase : task.phase = .insert bound createdAt)
    (hget : s.flowMap.get task.key = none) :
    Mapped {s.setPhase i task (.register s.flows.length bound) with
      flowMap := s.flowMap.set task.key s.flows.length
      flows := s.flows++[newFlow task i createdAt]} := by
  refine ⟨?_,?_⟩
  · intro key j
    rw [has_append,Table.get_set]
    by_cases hkey : key = task.key
    · subst hkey
      have hne : ¬ Has s.flows Pump.mapped j task.key := by
        rw [← hs.map,hget]
        simp
      simp [hne,newFlow,Pump.mapped,eq_comm]
    · have hne : ¬ task.key = key := fun h => hkey h.symm
      simp [hkey,hne,hs.map,newFlow]
  · intro j h key
    simp only [State.setPhase]
    rw [doing_set htask,has_append]
    by_cases hj : j = i
    · subst hj
      have hne : ¬ Has s.flows (Pump.awaits j) h key := by
        rw [← hs.registering]
        intro hdoing
        have hregisters := (hdoing.get htask).1
        rw [hphase] at hregisters
        cases hregisters
      simp [hne,newFlow,Phase.registers,Pump.awaits,eq_comm]
    · have hij : ¬ i = j := fun h => hj h.symm
      simp [hj,hij,hs.registering,newFlow,Pump.awaits]

theorem Mapped.unspawned {task : Task} (htask : s.tasks[i]? = some task)
    (hphase : task.phase = .register h bound) :
    ∃ flow, s.flows[h]? = some flow ∧ flow.key = task.key ∧ flow.pump = .unspawned i := by
  obtain ⟨flow,hflow,hkey,hpump⟩ :=
    (hs.registering i h task.key).mp ⟨task,htask,by rw [hphase]; rfl,rfl⟩
  exact ⟨flow,hflow,hkey,by simpa [Pump.awaits] using hpump⟩

theorem Mapped.register {task : Task} (htask : s.tasks[i]? = some task)
    (hphase : task.phase = .register h bound) (tracker : Tracker) :
    Mapped {s.setPhase i task (.update h) with
      tracker := tracker
      flows := s.flows.modify h fun flow => {flow with pump := .checking}} := by
  obtain ⟨flow,hflow,hkey,hpump⟩ := hs.unspawned htask hphase
  refine ⟨?_,?_⟩
  · intro key j
    rw [modify_eq_set hflow,has_set_same hflow (by rfl) (by rw [hpump]; rfl)]
    exact hs.map key j
  · intro j h' key
    simp only [State.setPhase]
    rw [doing_set htask,modify_eq_set hflow,has_set hflow (by rfl)]
    by_cases hj : j = i
    · subst hj
      by_cases hh : h' = h
      · simp [hh,Phase.registers,Pump.awaits]
      · have hne : ¬ Has s.flows (Pump.awaits j) h' key := by
          rw [← hs.registering]
          intro hdoing
          have hregisters := (hdoing.get htask).1
          rw [hphase] at hregisters
          exact hh (Option.some.inj hregisters).symm
        simp [hh,hne,Phase.registers]
    · by_cases hh : h' = h
      · subst hh
        have hne : ¬ Has s.flows (Pump.awaits j) h' key := by
          intro hhas
          have hawaits := (hhas.get hflow).2
          rw [hpump] at hawaits
          exact hj (by simpa [Pump.awaits,eq_comm] using hawaits)
        simp [hj,hs.registering,hne,Pump.awaits]
      · simp [hj,hh,hs.registering]

theorem Mapped.task {task : Task} (htask : s.tasks[i]? = some task)
    (ht : TaskMoves s i task t) : Mapped t := by
  cases ht with
  | advance phase hold hregisters hhandle =>
    exact hs.setPhase phase htask (hregisters.trans hold.symm) rfl rfl (fun _ _ _ => Iff.rfl)
  | found handle hphase hget =>
    refine hs.setPhase (.update handle) htask ?_ rfl rfl (fun _ _ _ => Iff.rfl)
    rcases hphase with hphase | ⟨bound,createdAt,hphase⟩ <;> rw [hphase] <;> rfl
  | insert bound createdAt hphase hget => exact hs.insert htask hphase hget
  | register handle bound hphase => exact hs.register htask hphase _
  | update handle hphase =>
    refine hs.setPhase (.touch handle) htask (by rw [hphase]; rfl) rfl rfl ?_
    intro q j key
    exact has_updateState ..
  | touch handle hphase =>
    exact hs.setPhase (.send handle) htask (by rw [hphase]; rfl) rfl rfl
      (fun _ _ _ => Iff.rfl)

theorem Mapped.step {e : Event} (ht : UdpFlowTable.step s e = some t) :
    Mapped t := by
  cases moves_of_step ht with
  | spawn header pkt =>
    refine ⟨hs.map,?_⟩
    intro i h key
    rw [doing_append (by rfl)]
    exact hs.registering i h key
  | tick elapsed => exact ⟨hs.map,hs.registering⟩
  | close => exact ⟨hs.map,hs.registering⟩
  | task i ok bound task _ htask h => exact hs.task htask h
  | pump handle read flow _ hflow h => exact hs.pump hflow h

end

/-- A running pump is the pump of the flow that the map has for its key. -/
def OnePump (s : State) : Prop :=
  ∀ key h, Has s.flows Pump.running h key → s.flowMap.get key = some h

theorem Mapped.onePump (hs : Mapped s) : OnePump s := by
  rintro key h ⟨flow,hflow,hkey,hrunning⟩
  exact (hs.map key h).mpr ⟨flow,hflow,hkey,Pump.mapped_of_running hrunning⟩

theorem along_onePump (es : List Event) : Along UdpFlowTable.step OnePump start es :=
  along_of_meets (G:=fun _ _ => True) (fun _ hs => hs.onePump) (fun _ _ _ hs _ ht => hs.step ht)
    start_mapped (meets_true _ _ es)

/-- The flow that the map has for the task's packet. -/
def finds (s : State) (task : Task) : Option Flow :=
  (s.flowMap.get task.key).bind fun handle => s.flows[handle]?

/-- A task looks into the map only while the pump of the flow it finds runs, and registers a
flow only while no earlier pump of that key still has to go to the tracker. -/
def taskOrderly (s : State) (task : Task) : Bool :=
  match task.phase with
  | .lookup | .insert _ _ => (finds s task).all fun flow => flow.pump.running
  | .register _ _ => s.flows.all fun flow => flow.key ≠ task.key || flow.pump ≠ .untracking
  | _ => true

/-- A pump leaves its loop only while no task has its flow's handle, and takes every sequence
number but the last one. -/
def pumpOrderly (s : State) (handle : ℕ) (read : Read) (flow : Flow) : Bool :=
  match flow.pump with
  | .stamping _ => flow.state.nextSequence ≠ 0xffffffffffffffff
  | _ => !leaves s flow read || s.tasks.all fun task => task.phase.handle ≠ some handle

/-- The tasks and pumps stay out of each other's way. -/
def orderly (s : State) : Event → Bool
  | .task i _ _ => s.tasks[i]?.all (taskOrderly s)
  | .pump handle read => s.flows[handle]?.all (pumpOrderly s handle read)
  | _ => true

/-- The socket that a task is going to use has a running pump. -/
def Held (s : State) : Prop :=
  ∀ i h key, Doing s.tasks Phase.handle i h key → Has s.flows Pump.running h key

theorem Held.setFlow {old : Flow} (hs : Held s) (hold : s.flows[h]? = some old)
    (hkey : new.key = old.key) (hrunning : new.pump.running = old.pump.running)
    (htasks : t.tasks = s.tasks) (hflows : t.flows = s.flows.set h new) : Held t := by
  intro i j key hdoing
  rw [hflows,has_set_same hold hkey hrunning]
  exact hs i j key (htasks ▸ hdoing)

theorem free_of_leaves (ho : pumpOrderly s h read flow = true)
    (hleaves : leaves s flow read = true) : ∀ task ∈ s.tasks, task.phase.handle ≠ some h := by
  unfold pumpOrderly at ho
  split at ho
  · rename_i datagram hpump
    simp [leaves,hpump] at hleaves
  · simpa [hleaves] using ho

theorem Held.pump (hs : Held s) (hflow : s.flows[h]? = some flow)
    (ho : pumpOrderly s h read flow = true) (ht : PumpMoves s h flow read t) : Held t := by
  cases ht with
  | loop pump hrunning hpump htouching =>
    exact hs.setFlow hflow (by rfl) (hpump.trans hrunning.symm) rfl rfl
  | stamp datagram hpump =>
    refine hs.setFlow hflow (by rfl) ?_ rfl rfl
    rw [stamp_running,hpump]
    rfl
  | respond frame hpump =>
    refine hs.setFlow hflow (by rfl) ?_ rfl rfl
    rw [hpump]
    rfl
  | leave tracker hrunning hleaves htracker =>
    rintro i j key ⟨task,htask,hhandle,hkey⟩
    have hj : j ≠ h := by
      rintro rfl
      exact free_of_leaves ho hleaves task (List.mem_of_getElem? htask) hhandle
    simp only [State.setFlow]
    rw [has_set hflow (by rfl),if_neg hj]
    exact hs i j key ⟨task,htask,hhandle,hkey⟩
  | unmap hpump =>
    refine hs.setFlow hflow (by rfl) ?_ rfl rfl
    rw [hpump]
    rfl
  | untrack hpump =>
    refine hs.setFlow hflow (by rfl) ?_ rfl rfl
    rw [hpump]
    rfl

theorem Held.setPhase {task : Task} (hs : Held s) (phase : Phase) (htask : s.tasks[i]? = some task)
    (htasks : t.tasks = s.tasks.set i {task with phase := phase})
    (hflows : ∀ h key, Has s.flows Pump.running h key → Has t.flows Pump.running h key)
    (hphase : ∀ h, phase.handle = some h → Has t.flows Pump.running h task.key) : Held t := by
  intro j h key hdoing
  rw [htasks,doing_set htask] at hdoing
  split at hdoing
  · obtain ⟨hhandle,rfl⟩ := hdoing
    exact hphase h hhandle
  · exact hflows h key (hs j h key hdoing)

theorem running_of_found {task : Task} (hm : Mapped s) (ho : taskOrderly s task = true)
    (hphase : task.phase = .lookup ∨ ∃ bound createdAt, task.phase = .insert bound createdAt)
    (hget : s.flowMap.get task.key = some h) : Has s.flows Pump.running h task.key := by
  obtain ⟨flow,hflow,hkey,-⟩ := (hm.map _ _).mp hget
  have hfinds : finds s task = some flow := by simp [finds,hget,hflow]
  refine ⟨flow,hflow,hkey,?_⟩
  rcases hphase with hphase | ⟨bound,createdAt,hphase⟩ <;>
    simpa [taskOrderly,hphase,hfinds] using ho

theorem Held.task {task : Task} (hs : Held s) (hm : Mapped s) (htask : s.tasks[i]? = some task)
    (ho : taskOrderly s task = true) (ht : TaskMoves s i task t) : Held t := by
  cases ht with
  | advance phase hold hregisters hhandle =>
    refine hs.setPhase phase htask rfl (fun _ _ hhas => hhas) ?_
    intro h hh
    rw [hhandle] at hh
    cases hh
  | found handle hphase hget =>
    refine hs.setPhase (.update handle) htask rfl (fun _ _ hhas => hhas) ?_
    rintro h ⟨⟩
    have hrunning := running_of_found hm ho hphase hget
    exact hrunning
  | insert bound createdAt hphase hget =>
    refine hs.setPhase (.register s.flows.length bound) htask rfl ?_ (fun h hh => by cases hh)
    intro h key hhas
    exact (has_append _ _ _).mpr (.inl hhas)
  | register handle bound hphase =>
    obtain ⟨flow,hflow,hkey,hpump⟩ := hm.unspawned htask hphase
    refine hs.setPhase (.update handle) htask rfl ?_ ?_
    · intro h key hhas
      rw [modify_eq_set hflow,has_set hflow (by rfl)]
      split
      · rename_i hh
        subst hh
        exact ⟨(hhas.get hflow).1,rfl⟩
      · exact hhas
    · rintro h ⟨⟩
      rw [modify_eq_set hflow,has_set hflow (by rfl),if_pos rfl]
      exact ⟨hkey,rfl⟩
  | update handle hphase =>
    refine hs.setPhase (.touch handle) htask rfl (fun h key => (has_updateState ..).mpr) ?_
    rintro h ⟨⟩
    exact (has_updateState ..).mpr (hs i handle task.key ⟨task,htask,by rw [hphase]; rfl,rfl⟩)
  | touch handle hphase =>
    refine hs.setPhase (.send handle) htask rfl (fun _ _ hhas => hhas) ?_
    rintro h ⟨⟩
    exact hs i handle task.key ⟨task,htask,by rw [hphase]; rfl,rfl⟩

theorem contains_set (tracker : Tracker) (key k : UdpFlowKey) (e : UdpFlowStatus) :
    (tracker.set key e).contains k = true ↔ k = key ∨ tracker.contains k = true := by
  by_cases hk : k = key <;> simp [Table.contains,Table.get_set,hk]

theorem contains_remove (tracker : Tracker) (key k : UdpFlowKey) :
    (tracker.remove key).contains k = true ↔ k ≠ key ∧ tracker.contains k = true := by
  by_cases hk : k = key <;> simp [Table.contains,Table.get_remove,hk]

theorem contains_update {tracker : Tracker} {key : UdpFlowKey} {e : UdpFlowStatus}
    (h : tracker.get key = some e) (e' : UdpFlowStatus) (k : UdpFlowKey) :
    (tracker.set key e').contains k = tracker.contains k := by
  by_cases hk : k = key <;> simp [Table.contains,Table.get_set,hk,h]

theorem contains_touchClient (tracker : Tracker) (key : UdpFlowKey) (now : ℕ) (k : UdpFlowKey) :
    (touchClient tracker key now).contains k = tracker.contains k := by
  unfold touchClient
  split
  · rfl
  · exact contains_update ‹_› _ k

theorem contains_touchRemote (tracker : Tracker) (key : UdpFlowKey) (now : ℕ) (k : UdpFlowKey) :
    (touchRemote tracker key now).contains k = tracker.contains k := by
  unfold touchRemote
  split
  · rfl
  · exact contains_update ‹_› _ k

/-- The tracker has an entry for each flow that is registered and not yet removed, and no two
of them have one key. -/
structure Tracked (s : State) : Prop where
  entries : ∀ key, s.tracker.contains key = true ↔ ∃ h, Has s.flows Pump.tracked h key
  alone : ∀ key h h', Has s.flows Pump.tracked h key → Has s.flows Pump.tracked h' key → h = h'

theorem Tracked.congr (hs : Tracked s)
    (htracker : ∀ key, t.tracker.contains key = s.tracker.contains key)
    (hflows : ∀ h key, Has t.flows Pump.tracked h key ↔ Has s.flows Pump.tracked h key) :
    Tracked t where
  entries key := by
    rw [htracker,hs.entries]
    exact exists_congr fun h => (hflows h key).symm
  alone key h h' hh hh' := hs.alone key h h' ((hflows h key).mp hh) ((hflows h' key).mp hh')

/-- The other flows with an entry have other keys, so only this pump's entry goes. -/
theorem Tracked.untrack (hs : Tracked s) (hflow : s.flows[h]? = some flow)
    (hpump : flow.pump = .untracking) : Tracked {s.setFlow h {flow with pump := .ended} with
      tracker := s.tracker.remove flow.key} := by
  have hhas : Has s.flows Pump.tracked h flow.key := ⟨flow,hflow,rfl,by rw [hpump]; rfl⟩
  have hflows : ∀ j key, Has (s.flows.set h {flow with pump := .ended}) Pump.tracked j key ↔
      key ≠ flow.key ∧ Has s.flows Pump.tracked j key := by
    intro j key
    rw [has_set hflow (by rfl)]
    constructor
    · intro hset
      split at hset
      · exact absurd hset.2 (by simp [Pump.tracked])
      · rename_i hj
        refine ⟨?_,hset⟩
        rintro rfl
        exact hj (hs.alone flow.key j h hset hhas)
    · rintro ⟨hkey,hother⟩
      rw [if_neg]
      · exact hother
      · rintro rfl
        exact hkey (hother.get hflow).1.symm
  refine ⟨?_,?_⟩
  · intro key
    simp only [State.setFlow,contains_remove,hflows,hs.entries,exists_and_left]
  · intro key j j' hj hj'
    exact hs.alone key j j' ((hflows j key).mp hj).2 ((hflows j' key).mp hj').2

theorem Tracked.pump (hs : Tracked s) (hflow : s.flows[h]? = some flow)
    (ht : PumpMoves s h flow read t) : Tracked t := by
  cases ht with
  | loop pump hrunning hpump htouching =>
    refine hs.congr (fun _ => rfl) (has_set_same hflow (by rfl) ?_)
    rw [Pump.tracked_of_running hrunning]
    exact Pump.tracked_of_running hpump
  | stamp datagram hpump =>
    refine hs.congr (fun _ => rfl) (has_set_same hflow (by rfl) ?_)
    rw [Pump.tracked_of_running (stamp_running flow datagram),hpump]
    rfl
  | respond frame hpump =>
    refine hs.congr (contains_touchRemote _ _ _) (has_set_same hflow (by rfl) ?_)
    rw [hpump]
    rfl
  | leave tracker hrunning hleaves htracker =>
    refine hs.congr ?_ (has_set_same hflow (by rfl) (Pump.tracked_of_running hrunning).symm)
    rcases htracker with rfl | rfl
    · exact fun _ => rfl
    · exact contains_touchRemote _ _ _
  | unmap hpump =>
    refine hs.congr (fun _ => rfl) (has_set_same hflow (by rfl) ?_)
    rw [hpump]
    rfl
  | untrack hpump => exact hs.untrack hflow hpump

/-- Before a flow is registered, no other flow of its key has an entry. -/
theorem Tracked.none_before {task : Task} (hm : Mapped s) (hphase : task.phase = .register h bound)
    (ho : taskOrderly s task = true) (hflow : s.flows[h]? = some flow) (hkey : flow.key = task.key)
    (hpump : flow.pump = .unspawned i) (j : ℕ) : ¬ Has s.flows Pump.tracked j task.key := by
  rintro ⟨other,hother,hkey',htracked⟩
  have hpending : other.pump ≠ .untracking := by
    simp only [taskOrderly,hphase,List.all_eq_true] at ho
    simpa [hkey'] using ho other (List.mem_of_getElem? hother)
  have hmapped : other.pump.mapped = true := by
    cases hp : other.pump <;> simp_all [Pump.tracked,Pump.mapped]
  have hj := (hm.map _ _).mpr ⟨other,hother,hkey',hmapped⟩
  rw [(hm.map _ _).mpr ⟨flow,hflow,hkey,by rw [hpump]; rfl⟩,Option.some.injEq] at hj
  subst hj
  rw [hflow,Option.some.injEq] at hother
  subst hother
  rw [hpump] at htracked
  cases htracked

theorem Tracked.register {task : Task} (hs : Tracked s) (hm : Mapped s)
    (htask : s.tasks[i]? = some task) (hphase : task.phase = .register h bound)
    (ho : taskOrderly s task = true) : Tracked {s.setPhase i task (.update h) with
      tracker := registerFlow s.tracker task.key bound s.now
      flows := s.flows.modify h fun flow => {flow with pump := .checking}} := by
  obtain ⟨flow,hflow,hkey,hpump⟩ := hm.unspawned htask hphase
  have hbefore := Tracked.none_before hm hphase ho hflow hkey hpump
  have hflows : ∀ j key, Has (s.flows.modify h fun flow => {flow with pump := .checking})
      Pump.tracked j key ↔ j = h ∧ key = task.key ∨ Has s.flows Pump.tracked j key := by
    intro j key
    rw [modify_eq_set hflow,has_set hflow (by rfl)]
    by_cases hj : j = h
    · subst hj
      have hno : ¬ Has s.flows Pump.tracked j key := by
        intro hhas
        have htracked := (hhas.get hflow).2
        rw [hpump] at htracked
        cases htracked
      simp [hno,hkey,Pump.tracked,eq_comm]
    · simp [hj]
  refine ⟨?_,?_⟩
  · intro key
    simp only [registerFlow,contains_set,hflows,hs.entries,exists_or,exists_and_right,exists_eq,
      true_and]
  · intro key j j' hj hj'
    rcases (hflows j key).mp hj with ⟨rfl,rfl⟩ | hold
    · rcases (hflows j' _).mp hj' with ⟨rfl,-⟩ | hold'
      · rfl
      · exact absurd hold' (hbefore j')
    · rcases (hflows j' key).mp hj' with ⟨rfl,rfl⟩ | hold'
      · exact absurd hold (hbefore j)
      · exact hs.alone key j j' hold hold'

theorem Tracked.task {task : Task} (hs : Tracked s) (hm : Mapped s)
    (htask : s.tasks[i]? = some task) (ho : taskOrderly s task = true) (ht : TaskMoves s i task t) :
    Tracked t := by
  cases ht with
  | advance phase hold hregisters hhandle => exact hs.congr (fun _ => rfl) fun _ _ => Iff.rfl
  | found handle hphase hget => exact hs.congr (fun _ => rfl) fun _ _ => Iff.rfl
  | insert bound createdAt hphase hget =>
    refine hs.congr (fun _ => rfl) fun h key => ?_
    rw [has_append]
    simp [newFlow,Pump.tracked]
  | register handle bound hphase => exact hs.register hm htask hphase ho
  | update handle hphase =>
    exact hs.congr (fun _ => rfl) fun _ _ => has_updateState ..
  | touch handle hphase => exact hs.congr (contains_touchClient _ _ _) fun _ _ => Iff.rfl

/-- The sequence numbers of a flow: those sent, the one about to be sent, and the next one. -/
structure Ordered (flow : Flow) : Prop where
  increasing : (flow.responses.map fun r => r.header.sequence).Pairwise (· < ·)
  below : ∀ r ∈ flow.responses, r.header.sequence < flow.state.nextSequence
  touching : ∀ frame, flow.pump = .touching frame →
    frame.header.sequence < flow.state.nextSequence ∧
      ∀ r ∈ flow.responses, r.header.sequence < frame.header.sequence

/-- Outside of a send, the place of the pump does not matter. -/
theorem Ordered.setPump (h : Ordered flow) {pump : Pump} (hpump : ∀ frame, pump ≠ .touching frame) :
    Ordered {flow with pump := pump} :=
  ⟨h.increasing,h.below,fun frame hframe => absurd hframe (hpump frame)⟩

theorem Ordered.updateState (h : Ordered flow) (task : Task) (now : ℕ) :
    Ordered (task.updateState now flow) := by
  have hnext : flow.state.nextSequence ≤ (task.updateState now flow).state.nextSequence := by
    simp only [Task.updateState]
    split
    · exact UInt64.le_of_lt ‹_›
    · exact UInt64.le_refl _
  refine ⟨h.increasing,?_,?_⟩
  · intro r hr
    exact UInt64.lt_of_lt_of_le (h.below r hr) hnext
  · intro frame hframe
    obtain ⟨hlt,hall⟩ := h.touching frame hframe
    exact ⟨UInt64.lt_of_lt_of_le hlt hnext,hall⟩

theorem response_sequence {datagram : List UInt8} {frame : SessionFrame}
    (h : flow.response datagram = some frame) :
    frame.header.sequence = flow.state.nextSequence := by
  obtain ⟨payload,-,rfl⟩ := Option.map_eq_some_iff.mp h
  rfl

theorem lt_succ_of_ne_max {n : UInt64} (h : n ≠ 0xffffffffffffffff) : n < n+1 := by
  have hne : n.toNat ≠ 0xffffffffffffffff := fun hn => h (UInt64.toNat_inj.mp hn)
  have hlt := n.toNat_lt
  rw [UInt64.lt_iff_toNat_lt,UInt64.toNat_add,UInt64.toNat_one]
  omega

theorem Ordered.stamp (h : Ordered flow) (hmax : flow.state.nextSequence ≠ 0xffffffffffffffff)
    (datagram : List UInt8) : Ordered (flow.stamp datagram) := by
  have hlt := lt_succ_of_ne_max hmax
  refine ⟨h.increasing,?_,?_⟩
  · intro r hr
    exact UInt64.lt_trans (h.below r hr) hlt
  · intro frame hframe
    simp only [Flow.stamp] at hframe
    split at hframe
    · cases hframe
    · rename_i stamped hresponse
      cases hframe
      simp only [Flow.stamp,response_sequence hresponse]
      exact ⟨hlt,h.below⟩

theorem Ordered.respond (h : Ordered flow) {frame : SessionFrame}
    (hpump : flow.pump = .touching frame) :
    Ordered {flow with pump := .checking, responses := flow.responses++[frame]} := by
  obtain ⟨hlt,hall⟩ := h.touching frame hpump
  refine ⟨?_,?_,fun _ hframe => by cases hframe⟩
  · simp only [List.map_append,List.map_cons,List.map_nil,List.pairwise_append]
    refine ⟨h.increasing,List.pairwise_singleton _ _,?_⟩
    simpa using hall
  · intro r hr
    rcases List.mem_append.mp hr with hr | hr
    · exact h.below r hr
    · rw [List.mem_singleton.mp hr]
      exact hlt

def Sequenced (s : State) : Prop := ∀ flow ∈ s.flows, Ordered flow

theorem Sequenced.set (hs : Sequenced s) (hnew : Ordered new) :
    ∀ flow ∈ s.flows.set h new, Ordered flow := by
  intro flow hflow
  rcases List.mem_or_eq_of_mem_set hflow with hold | rfl
  · exact hs flow hold
  · exact hnew

theorem Sequenced.modify (hs : Sequenced s) {f : Flow → Flow}
    (hf : ∀ flow, Ordered flow → Ordered (f flow)) (h : ℕ) :
    ∀ flow ∈ s.flows.modify h f, Ordered flow := by
  cases hold : s.flows[h]? with
  | none =>
    rw [List.modify_eq_self (List.getElem?_eq_none_iff.mp hold)]
    exact hs
  | some old =>
    rw [modify_eq_set hold]
    exact hs.set (hf old (hs old (List.mem_of_getElem? hold)))

theorem Sequenced.pump (hs : Sequenced s) (hflow : s.flows[h]? = some flow)
    (ho : pumpOrderly s h read flow = true) (ht : PumpMoves s h flow read t) : Sequenced t := by
  have hordered := hs flow (List.mem_of_getElem? hflow)
  cases ht with
  | loop pump hrunning hpump htouching => exact hs.set (hordered.setPump htouching)
  | stamp datagram hpump =>
    refine hs.set (hordered.stamp ?_ datagram)
    simpa [pumpOrderly,hpump] using ho
  | respond frame hpump => exact hs.set (hordered.respond hpump)
  | leave tracker hrunning hleaves htracker => exact hs.set (hordered.setPump (by simp))
  | unmap hpump => exact hs.set (hordered.setPump (by simp))
  | untrack hpump => exact hs.set (hordered.setPump (by simp))

theorem Sequenced.task {task : Task} (hs : Sequenced s) (ht : TaskMoves s i task t) :
    Sequenced t := by
  cases ht with
  | advance phase hold hregisters hhandle => exact hs
  | found handle hphase hget => exact hs
  | insert bound createdAt hphase hget =>
    intro flow hflow
    rcases List.mem_append.mp hflow with hmem | hmem
    · exact hs flow hmem
    · rw [List.mem_singleton.mp hmem]
      exact ⟨.nil,by simp [newFlow],by simp [newFlow]⟩
  | register handle bound hphase =>
    exact hs.modify (fun flow hflow => hflow.setPump (by simp)) handle
  | update handle hphase =>
    exact hs.modify (fun flow hflow => hflow.updateState task s.now) handle
  | touch handle hphase => exact hs

structure Calm (s : State) : Prop where
  mapped : Mapped s
  held : Held s
  tracked : Tracked s
  sequenced : Sequenced s

theorem start_calm : Calm start where
  mapped := start_mapped
  held i h key := by simp [start,Doing]
  tracked := ⟨by simp [start,Has,Table.contains],by simp [start,Has]⟩
  sequenced flow hflow := by cases hflow

theorem Calm.step {e : Event} (hs : Calm s) (ho : orderly s e = true)
    (ht : UdpFlowTable.step s e = some t) : Calm t := by
  have hmapped := hs.mapped.step ht
  cases moves_of_step ht with
  | spawn header pkt =>
    refine ⟨hmapped,?_,⟨hs.tracked.entries,hs.tracked.alone⟩,hs.sequenced⟩
    intro i h key hdoing
    exact hs.held i h key ((doing_append (by rfl) i h key).mp hdoing)
  | tick elapsed =>
    exact ⟨hmapped,hs.held,⟨hs.tracked.entries,hs.tracked.alone⟩,hs.sequenced⟩
  | close => exact ⟨hmapped,hs.held,⟨hs.tracked.entries,hs.tracked.alone⟩,hs.sequenced⟩
  | task i ok bound task _ htask h =>
    have htaskOrderly : taskOrderly s task = true := by simpa [orderly,htask] using ho
    exact ⟨hmapped,hs.held.task hs.mapped htask htaskOrderly h,
      hs.tracked.task hs.mapped htask htaskOrderly h,hs.sequenced.task h⟩
  | pump handle read flow _ hflow h =>
    have hpumpOrderly : pumpOrderly s handle read flow = true := by
      simpa [orderly,hflow] using ho
    exact ⟨hmapped,hs.held.pump hflow hpumpOrderly h,hs.tracked.pump hflow h,
      hs.sequenced.pump hflow hpumpOrderly h⟩

/-- A datagram goes out on a socket only while the pump of that socket runs. -/
def SentWhilePumped (s : State) (e : Event) : Prop :=
  ∀ i bound task h, e = .task i true bound → s.tasks[i]? = some task → task.phase = .send h →
    Has s.flows Pump.running h task.key

/-- No task has begun without being done, and no pump is between its loop and its end. -/
structure Quiet (s : State) : Prop where
  tasks : ∀ task ∈ s.tasks, task.phase = .lookup ∨ task.phase = .done
  pumps : ∀ flow ∈ s.flows, flow.pump.running = true ∨ flow.pump = .ended

def TrackerMatches (s : State) : Prop :=
  Quiet s → ∀ key, s.tracker.contains key = true ↔ ∃ h, s.flowMap.get key = some h

def Increasing (s : State) : Prop :=
  ∀ flow ∈ s.flows, (flow.responses.map fun r => r.header.sequence).Pairwise (· < ·)

theorem Calm.sentWhilePumped (hs : Calm s) (e : Event) : SentWhilePumped s e := by
  intro i bound task h _ htask hphase
  exact hs.held i h task.key ⟨task,htask,by rw [hphase]; rfl,rfl⟩

theorem Calm.trackerMatches (hs : Calm s) : TrackerMatches s := by
  intro hquiet key
  rw [hs.tracked.entries]
  refine exists_congr fun h => ?_
  rw [hs.mapped.map]
  -- a pump in its loop is in both, an ended one in neither
  have hsame : ∀ flow, s.flows[h]? = some flow → flow.pump.tracked = flow.pump.mapped := by
    intro flow hflow
    rcases hquiet.pumps flow (List.mem_of_getElem? hflow) with hrunning | hended
    · rw [Pump.tracked_of_running hrunning,Pump.mapped_of_running hrunning]
    · rw [hended]
      rfl
  constructor
  · rintro ⟨flow,hflow,hkey,htracked⟩
    exact ⟨flow,hflow,hkey,hsame flow hflow ▸ htracked⟩
  · rintro ⟨flow,hflow,hkey,hmapped⟩
    exact ⟨flow,hflow,hkey,(hsame flow hflow).symm ▸ hmapped⟩

theorem Calm.increasing (hs : Calm s) : Increasing s :=
  fun flow hflow => (hs.sequenced flow hflow).increasing

/-- In an orderly run every datagram goes out under a running pump, a key has at most one
pump, the tracker agrees with the map at rest, and the responses of a flow are numbered
upwards. -/
theorem udp_flow_table_consistent {es : List Event}
    (h : Meets step (fun s e => orderly s e = true) start es) :
    Transitions step (fun s e _ => SentWhilePumped s e) start es ∧
      Along step (fun s => OnePump s ∧ TrackerMatches s ∧ Increasing s) start es := by
  constructor
  · refine transitions_of_meets ?_ start_calm h
    intro s e t hs ho ht
    exact ⟨hs.step ho ht,hs.sentWhilePumped e⟩
  · refine along_of_meets ?_ (fun s e t hs ho ht => hs.step ho ht) start_calm h
    intro s hs
    exact ⟨hs.mapped.onePump,hs.trackerMatches,hs.increasing⟩

section Runs

/-- A request of the client to a name server. -/
def query (sequence : UInt64) : Event :=
  .spawn ⟨7,sequence,0⟩ ⟨⟨10,0,0,2⟩,⟨192,0,2,53⟩,40000,53,[1],1⟩

/-- The next `n` steps of a task. -/
def forward (i n : ℕ) : List Event := List.replicate n (.task i true "0.0.0.0:50000")

/-- A pump reads a datagram and sends it to the client. -/
def answer (handle : ℕ) : List Event :=
  List.replicate 4 (.pump handle (.datagram [2]))

/-- A pump finds its flow idle and gives it up, in `n` steps. -/
def expire (handle n : ℕ) : List Event := List.replicate n (.pump handle .timeout)

/-- A flow is opened, answers, is used again, answers, and expires. -/
def quietRun : List Event :=
  query 1::forward 0 8++answer 0++query 2::forward 1 4++answer 0++.tick 240000::expire 0 3

theorem udp_flow_table_consistent_quietRun :
    (exec step start quietRun).map (fun s => s.flows.map Flow.pump) = some [.ended] ∧
    Transitions step (fun s e _ => SentWhilePumped s e) start quietRun ∧
      Along step (fun s => OnePump s ∧ TrackerMatches s ∧ Increasing s) start quietRun :=
  ⟨by decide +kernel,udp_flow_table_consistent (by decide +kernel)⟩

/-- A task takes a flow's handle, the pump ends as the flow is idle, and the task is going to
send on a socket that nobody reads. -/
def lateSend : List Event :=
  query 1::forward 0 8++.tick 240000::query 2::forward 1 1++expire 0 3++forward 1 2

/-- A pump has taken its flow out of the map, a new flow is opened and registered, and the
pump then removes the new flow's entry from the tracker. -/
def lateRemoval : List Event :=
  query 1::forward 0 8++.tick 240000::expire 0 2++query 2::forward 1 8++expire 0 1

/-- The client uses the greatest sequence number. -/
def lastNumber : List Event :=
  query 0xffffffffffffffff::forward 0 8++answer 0++answer 0

theorem udp_flow_table_races :
    (exec step start lateSend).map (fun s => (s.tasks.map Task.phase,s.flows.map Flow.pump)) =
      some ([.done,.send 0],[.ended]) ∧
    (exec step start lateRemoval).map (fun s =>
        (s.tasks.map Task.phase,s.flows.map Flow.pump,s.flowMap.size,s.tracker.size)) =
      some ([.done,.done],[.ended,.checking],1,0) ∧
    (exec step start lastNumber).map (fun s =>
        s.flows.map fun flow => flow.responses.map fun r => r.header.sequence) =
      some [[0xffffffffffffffff,0]] := by
  decide +kernel

end Runs

end Bonded.UdpFlowTable
