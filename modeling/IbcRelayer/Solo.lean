import IbcRelayer.Spec.System

/-!
# IbcRelayer — a transfer that has the pipeline for itself

`pass` follows one transfer from stage to stage; in a `System` the stages of all transfers work side
by side, one call at a time. The two levels are connected here: what `pass` says of a transfer that
gets into no batch with others is a run of the system in which only the task of this transfer moves.

A `System` has no bounds on the channels and no numbers of workers, so that not everything it can do
can be done by the relayer. A pipeline with one transfer needs neither: no stage has another
transfer to work with, no channel is full, and nobody holds the lock of the deduplication set. The
runs of this module are restricted to states of this kind, by `Solo`.

* `run_calls` — a stage that is at work is run to its end;
* `run_stage` — a stage takes a waiting transfer, or its router puts it into a batch of its own;
* `run_stages` — and so on to the output, as `runStages` says;
* `run_pass`, `pass_is_run` — from the beginning of the pipeline to the deduplication set.
-/

namespace IbcRelayer

open CallTree Prog IBCV2Transfer

/-- A step of a pipeline, with the answers of `env`. -/
def Action.By (env : Environment) : Action → Prop
  | .start _ | .finish _ | .watch _ => True
  | .call _ env' | .route _ env' _ => env' = env
  | _ => False

/-- A step of a pipeline with one task, beside the tasks of other pipelines. -/
def Solo (env : Environment) (others : List Task) (pl : Pipeline) (s : System) (a : Action) :
    Prop :=
  a.By env ∧ ∃ task, task.pl = pl ∧ s.tasks.Perm (others ++ [task])

/-- The pipeline of the route has at most one task. -/
def System.Solitary (s : System) (route : Route) : Prop :=
  (s.tasks.filter (·.pl.route = route)).length ≤ 1

/-- The system in another world, with other tasks. -/
def System.put (s : System) (world : World) (tasks : List Task) : System := { s with world, tasks }

/-- What a stage does with a transfer that nobody joins in a batch. -/
def Stage.visitAlone (pl : Pipeline) (stage : Stage) (t : IBCV2Transfer) :
    Eff (List IBCV2Transfer) :=
  match stage.processor pl with
  | .batch q => do
    if !(← routeToBatch q t) then
      return [t]
    q.runBatch [t]
  | p => p.runAlone t

/-- The tasks of transfers that wait for the same stages. -/
def waitingTasks (pl : Pipeline) (stages : List Stage) (ts : List IBCV2Transfer) : List Task :=
  ts.map fun t => ⟨pl, stages, .waiting t⟩

section Solo

variable {config : ConfigReader} {priceClient : Bool} {env : Environment} {s : System} {w : World}
  {pl : Pipeline} {stage : Stage} {rest : List Stage} {others tasks : List Task} {i : Nat}

theorem getElem?_last (others : List Task) (task : Task) :
    (others ++ [task])[others.length]? = some task := by
  simp

theorem eraseIdx_last (others : List Task) (task : Task) :
    (others ++ [task]).eraseIdx others.length = others := by
  simp [List.eraseIdx_append_of_length_le]

/-- A stage at work makes its calls. -/
theorem run_calls (ts : List IBCV2Transfer) (prog : Eff (List IBCV2Transfer)) :
    System.Run config priceClient (Solo env others pl)
      (s.put w (others ++ [⟨pl, rest, .running stage ts prog⟩]))
      (s.put (execute env prog w).2
        (others ++ [⟨pl, rest, .running stage ts (.done (execute env prog w).1)⟩])) := by
  -- one step of the system for each call of the program
  induction prog generalizing w with
  | done out => exact .refl
  | call c k ih =>
    refine .head ⟨.call others.length env, ⟨rfl, _, rfl, .refl _⟩, ?_⟩ (ih (env w c))
    simp [System.step, System.call, System.put, System.replace, eraseIdx_last]

/-- A stage at work makes its calls, and hands its transfers on. -/
theorem run_work (ts : List IBCV2Transfer) (prog : Eff (List IBCV2Transfer)) :
    System.Run config priceClient (Solo env others pl)
      (s.put w (others ++ [⟨pl, rest, .running stage ts prog⟩]))
      (s.put (execute env prog w).2 (others ++ waitingTasks pl rest (execute env prog w).1)) := by
  refine (run_calls ts prog).tail ⟨.finish others.length, ⟨trivial, _, rfl, .refl _⟩, ?_⟩
  simp [System.step, System.finish, System.put, System.replace, eraseIdx_last, waitingTasks]

theorem solo_at {task : Task} {a : Action} (htask : tasks[i]? = some task) (hpl : task.pl = pl)
    (hby : a.By env) : Solo env (tasks.eraseIdx i) pl (s.put w tasks) a :=
  ⟨hby, task, hpl, (perm_cons_eraseIdx htask).trans List.perm_append_comm⟩

/-- A stage takes a task from its place, makes its calls, and hands its transfers on. -/
theorem run_started {task : Task} {ts : List IBCV2Transfer} {prog : Eff (List IBCV2Transfer)}
    (htask : tasks[i]? = some task) (hpl : task.pl = pl)
    (hstart : task.start = some ⟨pl, rest, .running stage ts prog⟩) :
    System.Run config priceClient (Solo env (tasks.eraseIdx i) pl) (s.put w tasks)
      (s.put (execute env prog w).2
        (tasks.eraseIdx i ++ waitingTasks pl rest (execute env prog w).1)) := by
  have hstep : (s.put w tasks).step config priceClient (.start i)
      = some (s.put w (tasks.eraseIdx i ++ [⟨pl, rest, .running stage ts prog⟩])) := by
    simp [System.step, System.put, System.replace, htask, hstart]
  exact .head ⟨.start i, solo_at htask hpl trivial, hstep⟩ (run_work ts prog)

/-- In a batch stage the router decides first, and then the batch has one transfer. -/
theorem visitAlone_batch {q : IBCV2BatchProcessor} (hproc : stage.processor pl = .batch q)
    (t : IBCV2Transfer) : stage.visitAlone pl t = (do
      if !(← routeToBatch q t) then
        return [t]
      q.runBatch [t]) := by
  unfold Stage.visitAlone
  rw [hproc]

/-- In another stage the processor gets the transfer at once. -/
theorem visitAlone_single (hsingle : stage.isSingle pl) (t : IBCV2Transfer) :
    stage.visitAlone pl t = (stage.processor pl).runAlone t := by
  unfold Stage.visitAlone
  split
  · rename_i q hproc
    exact absurd hproc (hsingle q)
  · rfl

/-- A stage visits a transfer that waits for it. -/
theorem run_stage {t : IBCV2Transfer} (htask : tasks[i]? = some ⟨pl, stage :: rest, .waiting t⟩) :
    System.Run config priceClient (Solo env (tasks.eraseIdx i) pl) (s.put w tasks)
      (s.put (execute env (stage.visitAlone pl t) w).2
        (tasks.eraseIdx i ++ waitingTasks pl rest (execute env (stage.visitAlone pl t) w).1)) := by
  cases hproc : stage.processor pl with
  | single p =>
    have hstart : Task.start ⟨pl, stage :: rest, .waiting t⟩
        = some ⟨pl, rest, .running stage [t] (stage.visitAlone pl t)⟩ := by
      simp [Task.start, Stage.visitAlone, hproc]
    exact run_started htask rfl hstart
  | finisher success error =>
    have hstart : Task.start ⟨pl, stage :: rest, .waiting t⟩
        = some ⟨pl, rest, .running stage [t] (stage.visitAlone pl t)⟩ := by
      simp [Task.start, Stage.visitAlone, hproc]
    exact run_started htask rfl hstart
  | batch q =>
    obtain ⟨wanted, w₁, hrouted⟩ : ∃ wanted w₁, execute env (routeToBatch q t) w = (wanted, w₁) :=
      ⟨_, _, rfl⟩
    cases wanted with
    -- the router lets the transfer by
    | false =>
      have hvisit : execute env (stage.visitAlone pl t) w = ([t], w₁) := by
        rw [visitAlone_batch hproc, execute_bind, hrouted]
        rfl
      have hstep : (s.put w tasks).step config priceClient (.route i env none)
          = some (s.put w₁ (tasks.eraseIdx i ++ [⟨pl, rest, .waiting t⟩])) := by
        simp [System.step, System.route, System.put, System.replace, htask, hproc, hrouted]
      rw [hvisit]
      exact .single ⟨.route i env none, solo_at htask rfl rfl, hstep⟩
    -- the router puts it into a batch, which starts with it alone
    | true =>
      have hvisit : execute env (stage.visitAlone pl t) w = execute env (q.runBatch [t]) w₁ := by
        rw [visitAlone_batch hproc, execute_bind, hrouted]
        rfl
      have hstep : (s.put w tasks).step config priceClient (.route i env none)
          = some (s.put w₁ (tasks.eraseIdx i ++ [⟨pl, rest, .collecting stage [t]⟩])) := by
        simp [System.step, System.route, System.put, System.replace, htask, hproc, hrouted]
      have hstart : Task.start ⟨pl, rest, .collecting stage [t]⟩
          = some ⟨pl, rest, .running stage [t] (q.runBatch [t])⟩ := by
        simp [Task.start, hproc]
      rw [hvisit]
      refine .head ⟨.route i env none, solo_at htask rfl rfl, hstep⟩ ?_
      have hrun : System.Run config priceClient (Solo env _ pl)
          (s.put w₁ (tasks.eraseIdx i ++ [⟨pl, rest, .collecting stage [t]⟩])) _ :=
        run_started (getElem?_last _ _) rfl hstart
      rw [eraseIdx_last] at hrun
      exact hrun

/-- A batch of one transfer comes out with this transfer or empty. -/
theorem eq_of_subperm_singleton {t : IBCV2Transfer} {out : List IBCV2Transfer}
    (h : (out.map (·.rowKey)).Subperm ([t].map (·.rowKey))) :
    out = (out.find? (·.rowKey = t.rowKey)).toList := by
  have hlength : out.length ≤ 1 := by simpa using h.length_le
  rcases out with _ | ⟨u, _ | ⟨v, out⟩⟩
  · rfl
  · have hkey : u.rowKey = t.rowKey := by simpa using h
    simp [hkey]
  · simp at hlength

/-- For a stage it makes no difference whether a transfer is followed by `pass` or in a system. -/
theorem execute_visitAlone (stage : Stage) (t : IBCV2Transfer) :
    execute env (stage.visitAlone pl t) w
      = ((execute env ((stage.processor pl).run [] [] t) w).1.toList,
        (execute env ((stage.processor pl).run [] [] t) w).2) := by
  cases hproc : stage.processor pl with
  | single p =>
    rw [visitAlone_single (by simp [Stage.isSingle, hproc]), hproc]
    exact execute_bind env _ _ w
  | finisher success error =>
    rw [visitAlone_single (by simp [Stage.isSingle, hproc]), hproc]
    exact execute_bind env _ _ w
  | batch q =>
    obtain ⟨wanted, w₁, hrouted⟩ : ∃ wanted w₁, execute env (routeToBatch q t) w = (wanted, w₁) :=
      ⟨_, _, rfl⟩
    rw [visitAlone_batch hproc, execute_bind, StageProcessor.run, conditionallyBatchProcess,
      execute_bind, hrouted]
    cases wanted with
    | false => rfl
    | true =>
      obtain ⟨evs, hkept, -⟩ := execute_of_ensures (runBatch_kept hproc [t]) env w₁
      have hout := eq_of_subperm_singleton hkept.2
      obtain ⟨r, w₂, hrun⟩ : ∃ r w₂,
          execute env (IBCV2BatchProcessorMW.process q [t]) w₁ = (r, w₂) := ⟨_, _, rfl⟩
      simp only [Bool.not_true, Bool.false_eq_true, if_false, List.nil_append, execute_bind,
        IBCV2BatchProcessor.runBatch, hrun] at hout ⊢
      cases r with
      | error err => rfl
      | ok out => exact Prod.ext hout rfl

/-- The stages visit a transfer one after the other, as `runStages` says. -/
theorem run_stages {key : RowKey} {mates : Stage → Mates key}
    (halone : ∀ stage, (mates stage).before = [] ∧ (mates stage).after = []) (stages : List Stage)
    (t : IBCV2Transfer) :
    System.Run config priceClient (Solo env others pl)
      (s.put w (others ++ waitingTasks pl stages [t]))
      (s.put (execute env (runStages pl mates stages t) w).2
        (others ++ waitingTasks pl [] (execute env (runStages pl mates stages t) w).1.toList)) := by
  induction stages generalizing t w with
  | nil => exact .refl
  | cons stage rest ih =>
    have hstage : System.Run config priceClient (Solo env _ pl)
        (s.put w (others ++ [⟨pl, stage :: rest, .waiting t⟩])) _ :=
      run_stage (getElem?_last _ _)
    rw [eraseIdx_last, execute_visitAlone] at hstage
    refine hstage.trans ?_
    rw [runStages, execute_bind, (halone stage).1, (halone stage).2]
    obtain ⟨o, w₁, hvisit⟩ : ∃ o w₁,
        execute env ((stage.processor pl).run [] [] t) w = (o, w₁) := ⟨_, _, rfl⟩
    rw [hvisit]
    cases o with
    | none => exact .refl
    | some t' => exact ih t'

theorem run_watch (t : IBCV2Transfer) :
    System.Run config priceClient (Solo env others pl)
      (s.put w (others ++ [⟨pl, [], .waiting t⟩]))
      { s.put w others with
        pipelines := updatePipeline pl.route (·.delete t) s.pipelines } := by
  refine .single ⟨.watch others.length, ⟨trivial, _, rfl, .refl _⟩, ?_⟩
  simp [System.step, System.watch, System.put, System.replace, eraseIdx_last]

/-- The way of a transfer from the beginning of its pipeline to the watching goroutine. -/
theorem run_pass {t : IBCV2Transfer} {key : RowKey} {mates : Stage → Mates key}
    (halone : ∀ stage, (mates stage).before = [] ∧ (mates stage).after = [])
    (htask : s.tasks[i]? = some ⟨pl, newPipeline pl, .waiting t⟩) (env : Environment) :
    System.Run config priceClient (Solo env (s.tasks.eraseIdx i) pl) s
      { world := (execute env (pass pl mates t) s.world).2
        snapshot := s.snapshot
        pipelines := (execute env (pass pl mates t) s.world).1.elim s.pipelines fun t' =>
          updatePipeline pl.route (·.delete t') s.pipelines
        tasks := s.tasks.eraseIdx i } := by
  obtain ⟨stage, rest, hstages⟩ : ∃ stage rest, newPipeline pl = stage :: rest := ⟨_, _, rfl⟩
  rw [hstages] at htask
  have hfirst : System.Run config priceClient (Solo env _ pl) (s.put s.world s.tasks) _ :=
    run_stage htask
  rw [execute_visitAlone] at hfirst
  unfold pass
  rw [hstages, runStages, execute_bind, (halone stage).1, (halone stage).2]
  refine hfirst.trans ?_
  obtain ⟨o, w₁, hvisit⟩ : ∃ o w₁,
      execute env ((stage.processor pl).run [] [] t) s.world = (o, w₁) := ⟨_, _, rfl⟩
  rw [hvisit]
  cases o with
  -- the first stage has lost the transfer, and its key stays in the set
  | none =>
    change System.Run _ _ _ (s.put w₁ (s.tasks.eraseIdx i ++ [])) _
    rw [List.append_nil]
    exact .refl
  | some t' =>
    refine (run_stages halone rest t').trans ?_
    dsimp only
    obtain ⟨o', w₂, hrest⟩ : ∃ o' w₂, execute env (runStages pl mates rest t') w₁ = (o', w₂) :=
      ⟨_, _, rfl⟩
    rw [hrest]
    cases o' with
    | none =>
      change System.Run _ _ _ (s.put w₂ (s.tasks.eraseIdx i ++ [])) _
      rw [List.append_nil]
      exact .refl
    | some t'' => exact run_watch t''

/-- In a pipeline with one task, the steps of this task are made with no other task there. -/
theorem Solo.solitary {task : Task} {s' : System} {a : Action} (hfree : s.Solitary pl.route)
    (htask : s.tasks[i]? = some task) (hpl : task.pl = pl)
    (h : Solo env (s.tasks.eraseIdx i) pl s' a) : a.By env ∧ s'.Solitary pl.route := by
  obtain ⟨hby, task', -, hperm⟩ := h
  refine ⟨hby, ?_⟩
  have hlength := ((perm_cons_eraseIdx htask).filter (·.pl.route = pl.route)).length_eq
  -- the other tasks are of other pipelines
  have hothers : ((s.tasks.eraseIdx i).filter (·.pl.route = pl.route)).length = 0 := by
    unfold System.Solitary at hfree
    simp only [List.filter_append, List.length_append, List.filter_singleton, hpl] at hlength
    simp at hlength
    omega
  unfold System.Solitary
  rw [(hperm.filter _).length_eq, List.filter_append, List.length_append, hothers]
  simpa using List.length_filter_le _ [task']

/-- **A pass is a run of the system.** A transfer that waits at the beginning of a pipeline in which
there is no other transfer can make its pass as `pass` says, with no other transfer in the pipeline
at any time: the other tasks, the dispatcher and, but for the key of this transfer, the
deduplication sets stay as they are. -/
theorem pass_is_run {t : IBCV2Transfer} {key : RowKey} {mates : Stage → Mates key}
    (halone : ∀ stage, (mates stage).before = [] ∧ (mates stage).after = [])
    (htask : s.tasks[i]? = some ⟨pl, newPipeline pl, .waiting t⟩) (hfree : s.Solitary pl.route)
    (env : Environment) :
    System.Run config priceClient (fun s' a => a.By env ∧ s'.Solitary pl.route) s
      { world := (execute env (pass pl mates t) s.world).2
        snapshot := s.snapshot
        pipelines := (execute env (pass pl mates t) s.world).1.elim s.pipelines fun t' =>
          updatePipeline pl.route (·.delete t') s.pipelines
        tasks := s.tasks.eraseIdx i } :=
  Machine.Run.mono (fun _ _ h => Solo.solitary hfree htask rfl h) (run_pass halone htask env)

end Solo

/-- The sample packet has been pushed. -/
def Sample.pushed : System where
  world := Sample.world
  pipelines := [⟨Sample.pipeline, [newTransferKey (newIBCV2Transfer Sample.row)]⟩]
  tasks := [⟨Sample.pipeline, newPipeline Sample.pipeline, .waiting (newIBCV2Transfer Sample.row)⟩]

/-- `pass_is_run` for a pass that ends complete. -/
theorem pass_is_run_complete :
    ∃ s', System.Run Sample.config false (fun s' a => a.By (Sample.obliging .zero)
        ∧ s'.Solitary Sample.pipeline.route) Sample.pushed s'
      ∧ s'.tasks.length = 0 ∧ s'.pipelines.map (·.inPipeline) = [[]]
      ∧ s'.world.transfers.map (·.status) = [.completeWithAck] := by
  have halone : ∀ stage, (Sample.alone stage).before = [] ∧ (Sample.alone stage).after = [] :=
    fun _ => ⟨rfl, rfl⟩
  have htask : Sample.pushed.tasks[0]? = some ⟨Sample.pipeline, newPipeline Sample.pipeline,
      .waiting (newIBCV2Transfer Sample.row)⟩ := rfl
  have hfree : Sample.pushed.Solitary Sample.pipeline.route := by
    simp [System.Solitary, Sample.pushed]
  exact ⟨_, pass_is_run halone htask hfree (Sample.obliging .zero), rfl, by decide +kernel,
    by decide +kernel⟩

end IbcRelayer
