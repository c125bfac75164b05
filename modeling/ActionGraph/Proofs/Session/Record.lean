import ActionGraph.Proofs.Session.Recount

/-!
A chronicle tells the truth. What a run remembers is what its chronicle says, at every moment; every
answer was given by what was remembered then; tasks are numbered in the order in which events began
them, and do nothing before; and whoever accepted an event is a trigger of the run.
-/

namespace ActionGraph

namespace Chronicle

variable {h more before after : Chronicle} {x : Nat × Happening}

theorem split_append (split : h ++ more = before ++ x :: after) :
    (∃ rest, h = before ++ x :: rest ∧ after = rest ++ more) ∨
      ∃ inner, before = h ++ inner ∧ more = inner ++ x :: after := by
  rcases List.append_eq_append_iff.mp split with ⟨inner, eq, rest⟩ | ⟨inner, eq, rest⟩
  · exact .inr ⟨inner, eq, rest⟩
  · cases inner with
    | nil => exact .inr ⟨[], by simpa using eq.symm, by simpa using rest.symm⟩
    | cons y inner =>
      obtain ⟨rfl, rest⟩ := List.cons.inj rest
      exact .inl ⟨inner, eq, by simpa using rest⟩

theorem split_firing {f : Firing} {k i : Nat} {d : Deed} (split : h ++ [f.happening] = before ++ (k, .did i d) :: after) :
    ∃ rest, h = before ++ (k, .did i d) :: rest := by
  rcases split_append split with ⟨rest, eq, _⟩ | ⟨inner, _, rest⟩
  · exact ⟨rest, eq⟩
  · cases inner <;> simp [Firing.happening] at rest

theorem split_turn {k i k' j : Nat} {ds : List Deed} {d : Deed}
    (split : h ++ deeds k i ds = before ++ (k', .did j d) :: after) :
    (∃ rest, h = before ++ (k', .did j d) :: rest) ∨
      k' = k ∧ j = i ∧ ∃ earlier later, ds = earlier ++ d :: later ∧ before = h ++ deeds k i earlier := by
  rcases split_append split with ⟨rest, eq, _⟩ | ⟨inner, rfl, rest⟩
  · exact .inl ⟨rest, eq⟩
  · obtain ⟨earlier, more, eq, rfl, tail⟩ := List.map_eq_append_iff.mp rest
    obtain ⟨d', later, rfl, same, rfl⟩ := List.map_eq_cons_iff.mp tail
    cases same
    exact .inr ⟨rfl, rfl, earlier, later, eq, rfl⟩

theorem memory_firing (h : Chronicle) (f : Firing) :
    (h ++ [f.happening]).memory f.listener.run =
      ⟨(h.memory f.listener.run).cache.publish f.listener.eventPort (.event f.snapshot), some f.snapshot⟩ := by
  simp [memory, writes, firings, of, Firing.happening, Happening.write?, Happening.firing?, Cache.after_append]

theorem memory_firing_other (h : Chronicle) {f : Firing} {k : Nat} (other : f.listener.run ≠ k) :
    (h ++ [f.happening]).memory k = h.memory k :=
  h.memory_other (by simp [of, Firing.happening, other])

end Chronicle

namespace Pulse

theorem write_arrival (p : Pulse) (far : Progress (List String)) :
    (p.arrival far).filterMap Deed.write? = [] := by
  unfold arrival
  split
  · simp [Deed.write?]
  · rfl

theorem met_arrival (p : Pulse) {far : Progress (List String)} {d : Deed} (arrives : d ∈ p.arrival far) (m : Memory)
    (staging : Staging) : d.Met m staging := by
  obtain ⟨id, rfl⟩ := p.of_arrival arrives
  trivial

end Pulse

namespace Session

variable {s s' : Session} {h : Chronicle} {i : Nat} {t : Task} {r : GraphRun}

theorem runs_advance_eq (task : s.tasks[i]? = some t) (run : s.runs[t.run]? = some r) :
    (s.advance i).runs = s.runs.modify t.run fun k => { k with memory := r.memory.did (s.deeds i) } := by
  cases s.goes i task with
  | rests done runs _ _ =>
    rw [runs, done, Memory.did_nil]
    exact (List.modify_id t.run s.runs).symm.trans (modify_congr run rfl)
  | @pulses r' p run' _ done runs _ _ =>
    cases run.symm.trans run'
    rw [runs, done, Memory.did_append, p.visit.memory_perform]
    simp [Memory.did, Pulse.write_arrival, scene]
  | @looks r' thread run' _ done runs _ _ =>
    cases run.symm.trans run'
    rw [runs, done, thread.memory_perform]
    rfl

theorem deeds_runless (task : s.tasks[i]? = some t) (none : s.runs[t.run]? = none) :
    s.deeds i = [] ∧ (s.advance i).runs = s.runs := by
  cases s.goes i task with
  | rests done runs _ _ => exact ⟨done, runs⟩
  | pulses run _ _ _ _ _ => cases none.symm.trans run
  | looks run _ _ _ _ _ => cases none.symm.trans run

theorem met_turn (task : s.tasks[i]? = some t) (run : s.runs[t.run]? = some r) {before after : List Deed} {d : Deed}
    (split : s.deeds i = before ++ d :: after) : d.Met (r.memory.did before) s.outside.staging := by
  cases s.goes i task with
  | rests done _ _ _ => simp [done] at split
  | @pulses r' p run' _ done _ _ _ =>
    cases run.symm.trans run'
    rw [done] at split
    rcases List.append_eq_append_iff.mp split with ⟨inner, _, rest⟩ | ⟨inner, eq, rest⟩
    · exact p.met_arrival (rest ▸ List.mem_append_right inner List.mem_cons_self) _ _
    · cases inner with
      | nil => exact p.met_arrival ((List.nil_append _).symm.trans rest.symm ▸ List.mem_cons_self) _ _
      | cons d' inner =>
        obtain ⟨rfl, _⟩ := List.cons.inj rest
        exact p.visit.met_deeds (s.scene r) eq
  | @looks r' thread run' _ done _ _ _ =>
    cases run.symm.trans run'
    rw [done] at split
    exact thread.met_deeds (s.scene r) split

/-- A listener that a run of this session asks for. -/
def Wants (s : Session) (l : Listener) : Prop :=
  ∃ env, s.environment? l.run = some env ∧ ∃ w ∈ env.wanted l.run, w.listener = l

/-- Only the listeners of runs are called, and accept events. -/
structure Attended (s : Session) (h : Chronicle) : Prop where
  heard : s.outside.HeardBy s.Wants
  fired : ∀ k f, (k, .fired f) ∈ h → f.listener.run = k ∧ s.Wants f.listener

/-- What runs remember is what was told of them, and so it was when their tasks were answered. -/
structure Recorded (s : Session) (h : Chronicle) : Prop where
  memory : ∀ (k : Nat) (r : GraphRun), s.runs[k]? = some r → r.memory = h.memory k
  runs : ∀ x ∈ h, x.1 < s.runs.length
  met : ∀ (before after : Chronicle) k i d, h = before ++ (k, .did i d) :: after → d.Met (before.memory k) s.outside.staging

/-- Tasks are known by the order in which events began them, and what is told of them comes later. -/
structure Numbered (s : Session) (h : Chronicle) : Prop where
  begun : h.begun = List.range s.tasks.length
  tasks : ∀ k i d, (k, .did i d) ∈ h → ∃ t, s.tasks[i]? = some t ∧ t.run = k
  earlier : ∀ (before after : Chronicle) k i d, h = before ++ (k, .did i d) :: after → i ∈ before.begun

theorem Quiet.staging (quiet : s.Quiet s') : s'.outside.staging = s.outside.staging :=
  congrArg Stock.staging quiet.stock

theorem staging_start (s : Session) (env : Environment) : (s.start env).1.outside.staging = s.outside.staging :=
  congrArg Stock.staging (s.stock_start env)

theorem Quiet.environment? (quiet : s.Quiet s') (k : Nat) : s'.environment? k = s.environment? k := by
  have item := congrArg (fun l => (l[k]?).map Prod.fst) quiet.runs
  simp only [List.getElem?_map, Option.map_map] at item
  exact item

theorem Quiet.run? (quiet : s.Quiet s') {k : Nat} {r' : GraphRun} (run : s'.runs[k]? = some r') :
    ∃ r, s.runs[k]? = some r ∧ r.kept = r'.kept := by
  have item := congrArg (fun l => l[k]?) quiet.runs
  simp only [List.getElem?_map, run, Option.map_some] at item
  exact Option.map_eq_some_iff.mp item.symm

theorem Quiet.task (quiet : s.Quiet s') {t' : Task} (task' : s'.tasks[i]? = some t') : ∃ t, s.tasks[i]? = some t ∧
    t'.run = t.run ∧ (t'.work = t.work ∨ ∃ result, t'.work = t.work.settle result) := by
  have bound : i < s.tasks.length := quiet.tasks ▸ (List.getElem?_eq_some_iff.mp task').1
  obtain ⟨next, found, evolved⟩ := quiet.evolved i _ (List.getElem?_eq_getElem bound)
  cases found.symm.trans task'
  exact ⟨_, List.getElem?_eq_getElem bound, evolved⟩

theorem task_begun {l : Listener} {e : Snapshot} (task : (s.beginPulse r l e).tasks[i]? = some t) :
    s.tasks[i]? = some t ∨
      s.tasks.length ≤ i ∧ t = ⟨l.run, true, false, .pulse (.leaving r.environment l.origin)⟩ := by
  rw [tasks_beginPulse] at task
  rcases Nat.lt_or_ge i s.tasks.length with old | new
  · exact .inl ((List.getElem?_append_left old).symm.trans task)
  · rw [List.getElem?_append_right new] at task
    exact .inr ⟨new, List.mem_singleton.mp (List.mem_of_getElem? task)⟩

theorem task_turned {j : Nat} {t' : Task} (task : (s.advance i).tasks[j]? = some t') :
    i ≠ j ∧ s.tasks[j]? = some t' ∨ i = j ∧ ∃ t, s.tasks[j]? = some t ∧ t' = { t with work := t.after s } := by
  rw [tasks_advance, List.getElem?_modify] at task
  obtain ⟨t, there, rfl⟩ := Option.map_eq_some_iff.mp task
  by_cases own : i = j
  · exact .inr ⟨own, t, there, if_pos own⟩
  · exact .inl ⟨own, there.trans (congrArg some (if_neg own).symm)⟩

theorem Quiet.length_runs (quiet : s.Quiet s') : s'.runs.length = s.runs.length := by
  simpa using congrArg List.length quiet.runs

theorem Wants.mono {l : Listener} (wants : s.Wants l)
    (same : ∀ k env, s.environment? k = some env → s'.environment? k = some env) : s'.Wants l := by
  obtain ⟨env, environment, wanted⟩ := wants
  exact ⟨env, same _ _ environment, wanted⟩

theorem run_of_wanted {env : Environment} {k : Nat} {w : Subscription} (wanted : w ∈ env.wanted k) :
    w.listener.run = k := by
  obtain ⟨n, _, given⟩ := List.mem_filterMap.mp wanted
  obtain ⟨t, _, rfl⟩ := Option.map_eq_some_iff.mp given
  rfl

theorem Attended.wants {l : Listener} (attended : s.Attended h) (hears : s.Hears l) : s.Wants l := by
  rcases hears with ⟨c, listed⟩ | ⟨run, place, found⟩
  · exact attended.heard c l listed
  · rw [handler?_eq] at found
    obtain ⟨env, environment, found⟩ := Option.bind_eq_some_iff.mp found
    obtain ⟨w, first, rfl⟩ := Option.map_eq_some_iff.mp found
    have wanted := List.mem_of_find?_eq_some first
    rw [← run_of_wanted wanted] at environment wanted
    exact ⟨env, environment, w, wanted, rfl⟩

theorem Attended.mono (attended : s.Attended h)
    (same : ∀ k env, s.environment? k = some env → s'.environment? k = some env)
    (heard : s'.outside.HeardBy s.Wants) : s'.Attended h :=
  ⟨fun c l listed => (heard c l listed).mono same,
    fun k f listed => (attended.fired k f listed).imp_right fun wants => wants.mono same⟩

theorem Attended.tell {more : Chronicle} (attended : s.Attended h) (deeds : ∀ k f, (k, .fired f) ∉ more) :
    s.Attended (h ++ more) := by
  refine ⟨attended.heard, fun k f listed => ?_⟩
  rcases List.mem_append.mp listed with listed | listed
  · exact attended.fired k f listed
  · exact absurd listed (deeds k f)

theorem steady_attended : Steady (fun _ _ => True) Attended where
  quiet _ attended quiet :=
    attended.mono (fun k _ environment => (quiet.environment? k).trans environment) (quiet.heard _ attended.heard)
  started {s h} env _ attended := by
    have same := (changed_start (s := s) env).environments
    have heard : (s.start env).1.outside.HeardBy (s.start env).1.Wants := by
      refine heardBy_start (fun c l listed => (attended.heard c l listed).mono same) fun w wanted => ?_
      obtain ⟨r, runs, environment, _⟩ := runs_start (s := s) env
      have own := run_of_wanted wanted
      exact ⟨env, by simp [Session.environment?, own, runs, environment], w, own ▸ wanted, rfl⟩
    exact ⟨heard, fun k f listed => (attended.fired k f listed).imp_right fun wants => wants.mono same⟩
  fired {s h l r} e _ attended hears run := by
    have same := (grows_beginPulse (s := s) (l := l) (r := r) (by simp [Session.environment?, run]) e).changed.environments
    have kept : (s.beginPulse r l e).Attended h := attended.mono same attended.heard
    refine ⟨kept.heard, fun k f listed => ?_⟩
    rcases List.mem_append.mp listed with listed | last
    · exact kept.fired k f listed
    · cases List.mem_singleton.mp last
      exact ⟨rfl, (attended.wants hears).mono same⟩
  turned {s h i t} _ attended task := by
    have same := (changed_advance (s := s) i).environments
    refine (attended.mono same (attended.heard.of_premises (s.premises_advance i))).tell fun k f listed => ?_
    obtain ⟨d, _, same⟩ := List.mem_map.mp listed
    cases same

theorem Recorded.turned (recorded : s.Recorded h) (task : s.tasks[i]? = some t) :
    (s.advance i).Recorded (h ++ Chronicle.deeds t.run i (s.deeds i)) := by
  have staging : (s.advance i).outside.staging = s.outside.staging := s.staging_advance i
  cases run : s.runs[t.run]? with
  | none =>
    obtain ⟨idle, same⟩ := deeds_runless task run
    rw [idle]
    exact ⟨by simpa [Chronicle.deeds, same] using recorded.memory, by simpa [Chronicle.deeds, same] using recorded.runs,
      by simpa [Chronicle.deeds, staging] using recorded.met⟩
  | some r =>
    have turned := runs_advance_eq task run
    refine ⟨fun k r' found => ?_, fun x told => ?_, fun before after k j d split => ?_⟩
    · rw [turned, List.getElem?_modify] at found
      obtain ⟨r₀, there, rfl⟩ := Option.map_eq_some_iff.mp found
      by_cases own : t.run = k
      · subst own
        simp [Chronicle.memory_deeds, recorded.memory _ r run]
      · rw [h.memory_other (Chronicle.deeds_of_other own i _)]
        simpa [own] using recorded.memory k r₀ there
    · rw [turned, List.length_modify]
      rcases List.mem_append.mp told with told | told
      · exact recorded.runs x told
      · obtain ⟨d, _, rfl⟩ := List.mem_map.mp told
        exact (List.getElem?_eq_some_iff.mp run).1
    · rw [staging]
      rcases Chronicle.split_turn split with ⟨rest, eq⟩ | ⟨rfl, rfl, earlier, later, eq, rfl⟩
      · exact recorded.met before rest k j d eq
      · rw [Chronicle.memory_deeds, ← recorded.memory _ r run]
        exact met_turn task run eq

theorem steady_recorded : Steady (fun _ _ => True) Recorded where
  quiet {s s' h} _ recorded quiet := by
    refine ⟨fun k r' run' => ?_, fun x told => quiet.length_runs ▸ recorded.runs x told, ?_⟩
    · obtain ⟨r, run, same⟩ := quiet.run? run'
      exact (congrArg Prod.snd same).symm.trans (recorded.memory k r run)
    · rw [quiet.staging]
      exact recorded.met
  started {s h} env _ recorded := by
    obtain ⟨r, runs, _, empty⟩ := runs_start (s := s) env
    refine ⟨fun k r' run => ?_, fun x told => ?_, ?_⟩
    · rw [runs] at run
      rcases Nat.lt_or_ge k s.runs.length with old | new
      · exact recorded.memory k r' ((List.getElem?_append_left old).symm.trans run)
      · -- Nothing has been told of a run that is only now started.
        have untold : h.of k = [] := by
          refine List.filterMap_eq_nil_iff.mpr fun x told => if_neg fun own => ?_
          have bound := recorded.runs x told
          omega
        rw [List.getElem?_append_right new] at run
        rw [List.mem_singleton.mp (List.mem_of_getElem? run), empty]
        simp [Chronicle.memory, Chronicle.writes, Chronicle.firings, untold, Memory.empty]
    · have bound := recorded.runs x told
      rw [runs, List.length_append]
      omega
    · rw [s.staging_start env]
      exact recorded.met
  fired {s h l r} e _ recorded _ run := by
    refine ⟨fun k r' run' => ?_, fun x told => ?_, fun before after k i d split => ?_⟩
    · rw [runs_beginPulse, List.getElem?_modify] at run'
      obtain ⟨r₀, there, rfl⟩ := Option.map_eq_some_iff.mp run'
      by_cases own : l.run = k
      · subst own
        simpa [recorded.memory _ r run] using (h.memory_firing ⟨l, e, s.tasks.length⟩).symm
      · rw [h.memory_firing_other (f := ⟨l, e, s.tasks.length⟩) own]
        simpa [own] using recorded.memory k r₀ there
    · rw [length_beginPulse]
      rcases List.mem_append.mp told with told | last
      · exact recorded.runs x told
      · cases List.mem_singleton.mp last
        exact (List.getElem?_eq_some_iff.mp run).1
    · obtain ⟨rest, eq⟩ := Chronicle.split_firing split
      exact recorded.met before rest k i d eq
  turned _ recorded task := recorded.turned task

theorem Numbered.bound (numbered : s.Numbered h) {k i : Nat} {d : Deed} (told : (k, .did i d) ∈ h) :
    i < s.tasks.length := by
  obtain ⟨t, task, _⟩ := numbered.tasks k i d told
  exact (List.getElem?_eq_some_iff.mp task).1

theorem Numbered.untold (numbered : s.Numbered h) {i : Nat} (new : s.tasks.length ≤ i) : h.history.of i = [] := by
  refine List.filterMap_eq_nil_iff.mpr fun d told => if_neg fun own => ?_
  obtain ⟨⟨k, x⟩, listed, same⟩ := List.mem_filterMap.mp told
  cases x with
  | fired f => cases same
  | did j d' =>
    cases same
    have bound := numbered.bound listed
    omega

theorem numbered_empty (o : Outside) : (empty o).Numbered [] :=
  ⟨rfl, fun _ _ _ told => absurd told List.not_mem_nil, fun before _ _ _ _ split => by simp at split⟩

theorem steady_numbered : Steady (fun _ _ => True) Numbered where
  quiet {s s' h} _ numbered quiet := by
    refine ⟨quiet.tasks ▸ numbered.begun, fun k i d told => ?_, numbered.earlier⟩
    obtain ⟨t, task, own⟩ := numbered.tasks k i d told
    obtain ⟨t', task', run, _⟩ := quiet.evolved i t task
    exact ⟨t', task', run.trans own⟩
  started env _ numbered :=
    ⟨by rw [tasks_start]; exact numbered.begun, by rw [tasks_start]; exact numbered.tasks, numbered.earlier⟩
  fired {s h l r} e _ numbered _ _ := by
    have tasks := s.tasks_beginPulse r l e
    refine ⟨?_, fun k i d told => ?_, fun before after k i d split => ?_⟩
    · simp [numbered.begun, tasks, List.range_succ]
    · rcases List.mem_append.mp told with told | last
      · obtain ⟨t, task, own⟩ := numbered.tasks k i d told
        exact ⟨t, by rw [tasks, List.getElem?_append_left (numbered.bound told), task], own⟩
      · simp [Firing.happening] at last
    · obtain ⟨rest, eq⟩ := Chronicle.split_firing split
      exact numbered.earlier before rest k i d eq
  turned {s h i t} _ numbered task := by
    have length : (s.advance i).tasks.length = s.tasks.length := by simp [tasks_advance]
    refine ⟨by simpa [length] using numbered.begun, fun k j d told => ?_, fun before after k j d split => ?_⟩
    · have old : ∃ t, s.tasks[j]? = some t ∧ t.run = k := by
        rcases List.mem_append.mp told with told | last
        · exact numbered.tasks k j d told
        · obtain ⟨d', _, same⟩ := List.mem_map.mp last
          cases same
          exact ⟨t, task, rfl⟩
      obtain ⟨t₀, there, own⟩ := old
      rw [tasks_advance, List.getElem?_modify, there]
      by_cases turn : i = j <;> simp [turn, own]
    · rcases Chronicle.split_turn split with ⟨rest, eq⟩ | ⟨rfl, rfl, earlier, later, _, rfl⟩
      · exact numbered.earlier before rest k j d eq
      · rw [Chronicle.begun_append, numbered.begun]
        exact List.mem_append_left _ (List.mem_range.mpr (List.getElem?_eq_some_iff.mp task).1)

end Session

end ActionGraph
