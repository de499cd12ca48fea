import FundRecovery.Proofs.Discovery.Schedules
import Mathlib.Data.List.Perm.Basic

/-!
# The jobs of a pool are accounted for

Whatever the interleaving, a job is in the queue, in the hands of one worker, or settled by one
delivery; and the jobs that have left the queue are those that were first in it.

`Inv w` is what a proof knows of the world, and `Stands job rest w` what it knows of a job whose
scan still has `rest` to do. `Tracks` says that this knowledge survives every request: those of the
scan itself, those of the scans of other jobs, and looks at the token. Then (`accounted_run`) at the
end of every run the settled jobs are a prefix of the queue, in some order, and each delivery is an
outcome of which `Stands` holds, or what is left of a scan that crashed.

* `Ledger`: the account of a pool; `Ledger.step`: every move keeps it.
* `accounted_run`: the account at the end of a run.
-/

namespace FundRecovery.Discovery

variable {σ : Type}

/-- Knowledge of the world and of jobs that survives the requests of all workers. -/
structure Tracks (env : Environment σ) (jobs : List Job) (Inv : World σ → Prop)
    (Stands : Job → Scan SchemeOutcome → World σ → Prop) (Lost : Job → Crash → Prop) : Prop where
  inv : ∀ {j q next w}, j ∈ jobs → Inv w → Stands j (.ask q next) w → Inv (env.handler q w).2
  answered : ∀ {j q next w a w'}, j ∈ jobs → Inv w → Stands j (.ask q next) w →
    env.handler q w = (.ok a, w') → Stands j (next a) w'
  crashed : ∀ {j q next w e w'}, j ∈ jobs → Inv w → Stands j (.ask q next) w →
    env.handler q w = (.error e, w') → Lost j e
  frame : ∀ {j q next w k rest}, j ∈ jobs → k ∈ jobs → j ≠ k → Inv w → Stands j (.ask q next) w →
    Stands k rest w → Stands k rest (env.handler q w).2
  invLook : ∀ {w}, Inv w → Inv (env.handler .isCancelled w).2
  look : ∀ {k rest w}, k ∈ jobs → Inv w → Stands k rest w →
    Stands k rest (env.handler .isCancelled w).2

/-- A worker in the middle of a scan holds its job, another one none. -/
def Worker.Holds (P : Job → Scan SchemeOutcome → Prop) : Worker → Option Job → Prop
  | scanning rest, held => ∃ j, held = some j ∧ P j rest
  | _, held => held = none

def Worker.isFailed : Worker → Bool
  | failed => true
  | _ => false

theorem Worker.Holds.mono {P Q : Job → Scan SchemeOutcome → Prop} {x : Worker}
    {held : Option Job} (h : x.Holds P held)
    (hPQ : ∀ j rest, held = some j → P j rest → Q j rest) : x.Holds Q held := by
  cases x with
  | scanning rest =>
    obtain ⟨j, hj, hP⟩ := h
    exact ⟨j, hj, hPQ j rest hj hP⟩
  | _ => exact h

namespace Pool

section Ledger

variable (env : Environment σ) (jobs : List Job) (Inv : World σ → Prop)
  (Stands : Job → Scan SchemeOutcome → World σ → Prop) (Lost : Job → Crash → Prop)

/-- A delivery settles its job: an outcome, or the remains of a crashed scan. -/
def Settles (w : World σ) (j : Job) (d : Delivery) : Prop :=
  (∃ o, d = .outcome o ∧ Stands j (.done o) w) ∨ ∃ task e, d = .crashed env task e ∧ Lost j e

/-- The account of a pool: `crew` has the workers with the jobs they hold, in any order, `settled`
the jobs that have a delivery, in the order of the deliveries. -/
structure Ledger (scan : Job → Scan SchemeOutcome) (crew : List (Worker × Option Job))
    (settled : List (Job × Delivery)) (p : Pool) (w : World σ) : Prop where
  workers : p.workers.Perm (crew.map (·.1))
  deliveries : p.deliveries = settled.map (·.2)
  taken : ∃ taken, taken ++ p.queue = jobs ∧
    taken.Perm (settled.map (·.1) ++ crew.filterMap (·.2))
  holds : ∀ x ∈ crew, x.1.Holds (fun j rest => Stands j rest w) x.2
  settles : ∀ x ∈ settled, Settles env Stands Lost w x.1 x.2
  queued : ∀ j ∈ p.queue, Stands j (scan j) w
  inv : Inv w
  /-- Workers stop when nothing is left to do, or when the token is cancelled. -/
  stopped : .stopped ∈ p.workers → p.queue = [] ∨ w.cancelled = true
  /-- Every worker that failed left one failure. -/
  failed : p.failures.length = p.workers.countP Worker.isFailed

/-- Some account of the pool is right. -/
def Accounted (scan : Job → Scan SchemeOutcome) (s : Pool × World σ) : Prop :=
  ∃ crew settled, Ledger env jobs Inv Stands Lost scan crew settled s.1 s.2

end Ledger

variable {env : Environment σ} {scan : Job → Scan SchemeOutcome} {jobs : List Job}
  {Inv : World σ → Prop} {Stands : Job → Scan SchemeOutcome → World σ → Prop}
  {Lost : Job → Crash → Prop}
  {crew others : List (Worker × Option Job)} {settled : List (Job × Delivery)} {p : Pool}
  {w : World σ} {i : Nat} {x : Worker} {held : Option Job}

namespace Ledger

/-- The account with worker `i` first in the crew. -/
theorem focus (h : Ledger env jobs Inv Stands Lost scan crew settled p w)
    (hx : p.workers[i]? = some x) :
    ∃ held others, Ledger env jobs Inv Stands Lost scan ((x, held) :: others) settled p w ∧
      ∀ y held', (p.workers.set i y).Perm (((y, held') :: others).map (·.1)) := by
  obtain ⟨hi, rfl⟩ := List.getElem?_eq_some_iff.mp hx
  have hmem := h.workers.subset (List.getElem_mem hi)
  obtain ⟨⟨x, held⟩, hc, hxe⟩ := List.mem_map.mp hmem
  obtain ⟨a, b, rfl⟩ := List.append_of_mem hc
  have hperm : ((x, held) :: (a ++ b)).Perm (a ++ (x, held) :: b) := List.perm_middle.symm
  refine ⟨held, a ++ b, ?_, fun y held' => ?_⟩
  · rw [← hxe]
    obtain ⟨taken, ht, hp⟩ := h.taken
    exact {
      workers := h.workers.trans (hperm.map _).symm
      deliveries := h.deliveries
      taken := ⟨taken, ht, hp.trans ((hperm.filterMap _).symm.append_left _)⟩
      holds := fun z hz => h.holds z (hperm.subset hz)
      settles := h.settles
      queued := h.queued
      inv := h.inv
      stopped := h.stopped
      failed := h.failed }
  · refine (List.set_perm_cons_eraseIdx hi y).trans (List.Perm.cons y ?_)
    have := (List.getElem_cons_eraseIdx_perm hi).trans (h.workers.trans (hperm.map _).symm)
    rw [List.map_cons, hxe] at this
    exact this.cons_inv

/-- Jobs that are held by others, settled or queued are not the one that is held. -/
theorem nodup (h : Ledger env jobs Inv Stands Lost scan crew settled p w) (hn : jobs.Nodup) :
    (settled.map (·.1) ++ crew.filterMap (·.2) ++ p.queue).Nodup := by
  obtain ⟨taken, ht, hp⟩ := h.taken
  rw [← ht] at hn
  exact ((hp.append_right _).nodup_iff).mp hn

theorem mem_jobs (h : Ledger env jobs Inv Stands Lost scan crew settled p w) {j : Job} :
    j ∈ jobs ↔ j ∈ settled.map (·.1) ++ crew.filterMap (·.2) ++ p.queue := by
  obtain ⟨taken, ht, hp⟩ := h.taken
  rw [← ht]
  exact (hp.append_right _).mem_iff

/-- What is known of the jobs that worker `i` does not hold carries over to another world. -/
theorem keep (h : Ledger env jobs Inv Stands Lost scan ((x, held) :: others) settled p w)
    (hn : jobs.Nodup) (w' : World σ)
    (hk : ∀ k rest, k ∈ jobs → held ≠ some k → Stands k rest w → Stands k rest w') :
    (∀ z ∈ others, z.1.Holds (fun j rest => Stands j rest w') z.2) ∧
      (∀ z ∈ settled, Settles env Stands Lost w' z.1 z.2) ∧
      ∀ j ∈ p.queue, Stands j (scan j) w' := by
  have hnodup := h.nodup hn
  have hmem {j : Job} := h.mem_jobs (j := j)
  refine ⟨fun z hz => ?_, fun z hz => ?_, fun j hj => ?_⟩
  · refine (h.holds z (List.mem_cons_of_mem _ hz)).mono fun j rest hj hS => ?_
    have hjo : j ∈ others.filterMap (·.2) := List.mem_filterMap.mpr ⟨z, hz, hj⟩
    refine hk j rest (hmem.mpr ?_) ?_ hS
    · cases held <;> simp [hjo]
    · rintro rfl
      simp [List.nodup_append, hjo] at hnodup
  · rcases h.settles z hz with ⟨o, ho, hS⟩ | hc
    · have hjs : z.1 ∈ settled.map (·.1) := List.mem_map_of_mem hz
      refine .inl ⟨o, ho, hk z.1 _ (hmem.mpr ?_) ?_ hS⟩
      · exact List.mem_append_left _ (List.mem_append_left _ hjs)
      · rintro rfl
        exact (List.nodup_append.mp (List.nodup_append.mp hnodup).1).2.2 _ hjs _
          List.mem_cons_self rfl
    · exact .inr hc
  · refine hk j _ (hmem.mpr (List.mem_append_right _ hj)) ?_ (h.queued j hj)
    rintro rfl
    exact (List.nodup_append.mp hnodup).2.2 _
      (List.mem_append_right _ List.mem_cons_self) _ hj rfl

/-- The account after worker `i` has changed, with `new` deliveries. -/
theorem replace (h : Ledger env jobs Inv Stands Lost scan ((x, held) :: others) settled p w)
    (hset : ∀ y held', (p.workers.set i y).Perm (((y, held') :: others).map (·.1)))
    {y : Worker} {queue : List Job} {deliveries : List Delivery} {w' : World σ}
    (held' : Option Job) (new : List (Job × Delivery))
    (hd : deliveries = p.deliveries ++ new.map (·.2))
    (ht : ∃ taken, taken ++ queue = jobs ∧
      taken.Perm ((settled ++ new).map (·.1) ++ ((y, held') :: others).filterMap (·.2)))
    (hy : y.Holds (fun j rest => Stands j rest w') held')
    (ho : ∀ z ∈ others, z.1.Holds (fun j rest => Stands j rest w') z.2)
    (hs : ∀ z ∈ settled ++ new, Settles env Stands Lost w' z.1 z.2)
    (hq : ∀ j ∈ queue, Stands j (scan j) w') (hi : Inv w')
    (hend : p.queue = [] ∨ w.cancelled = true → queue = [] ∨ w'.cancelled = true)
    (hstop : y = .stopped → queue = [] ∨ w'.cancelled = true)
    (hfail : (if y.isFailed then 1 else 0) =
      (if x.isFailed then 1 else 0) + (new.filterMap (·.2.failure?)).length) :
    Ledger env jobs Inv Stands Lost scan ((y, held') :: others) (settled ++ new)
      (withStance p i (y, queue, deliveries, w')).1 w' where
  workers := hset y held'
  deliveries := by simp [withStance, hd, h.deliveries]
  taken := ht
  holds := by
    rintro z hz
    rcases List.mem_cons.mp hz with rfl | hz
    · exact hy
    · exact ho z hz
  settles := hs
  queued := hq
  inv := hi
  stopped hmem := by
    rcases List.mem_cons.mp ((hset y held').subset hmem) with hy | ho
    · exact hstop hy.symm
    · exact hend (h.stopped (h.workers.symm.subset (List.mem_cons_of_mem _ ho)))
  failed := by
    have hbefore := h.failed
    rw [h.workers.countP_eq, List.map_cons, List.countP_cons] at hbefore
    simp only [withStance, failures, hd, List.filterMap_append, List.filterMap_map,
      List.length_append] at hbefore ⊢
    rw [(hset y held').countP_eq, List.map_cons, List.countP_cons, hfail, hbefore, Nat.add_assoc]
    rfl

/-- A cancelled token stays cancelled. -/
theorem cancelled_handler {q : Request} (h : w.cancelled = true) :
    (env.handler q w).2.cancelled = true := by
  cases q <;> simp [Environment.handler, h]

/-! ### The moves of a worker, by where it stands -/

section Moves

variable (hr : Tracks env jobs Inv Stands Lost) (hn : jobs.Nodup) {task : Nat}
  (hset : ∀ y held', (p.workers.set i y).Perm (((y, held') :: others).map (·.1)))

include hr hn hset

theorem moved_ready
    (h : Ledger env jobs Inv Stands Lost scan ((.ready, held) :: others) settled p w) :
    Accounted env jobs Inv Stands Lost scan
      (withStance p i (move env scan task .ready p.queue p.deliveries w)) := by
  obtain rfl : held = none := h.holds _ List.mem_cons_self
  obtain ⟨b, w', hl⟩ := look_eq env w
  have hw' : w' = (env.handler .isCancelled w).2 := by rw [hl]
  obtain ⟨ho, hs, hq⟩ := h.keep hn w' fun k rest hk _ hS => hw' ▸ hr.look hk h.inv hS
  have hb : b = true → w'.cancelled = true := by
    rintro rfl
    simp only [Environment.handler, Prod.mk.injEq, Except.ok.injEq] at hl
    rw [← hl.2]; exact hl.1
  have hend : p.queue = [] ∨ w.cancelled = true → p.queue = [] ∨ w'.cancelled = true :=
    Or.imp_right fun hc => hw' ▸ cancelled_handler hc
  have hmove : move env scan task .ready p.queue p.deliveries w =
      (if b then .stopped else .dequeuing, p.queue, p.deliveries, w') := by
    cases b <;> simp only [move, hl] <;> rfl
  rw [hmove]
  refine ⟨_, _, h.replace hset none [] (by simp) (by simpa using h.taken) ?_ ho (by simpa using hs)
    hq (hw' ▸ hr.invLook h.inv) hend ?_ ?_⟩
  · cases b <;> rfl
  · cases b with
    | true => exact fun _ => .inr (hb rfl)
    | false => simp
  · cases b <;> rfl

omit hr in
theorem moved_dequeuing
    (h : Ledger env jobs Inv Stands Lost scan ((.dequeuing, held) :: others) settled p w) :
    Accounted env jobs Inv Stands Lost scan
      (withStance p i (move env scan task .dequeuing p.queue p.deliveries w)) := by
  obtain rfl : held = none := h.holds _ List.mem_cons_self
  obtain ⟨ho, hs, hq⟩ := h.keep hn w fun k rest _ _ hS => hS
  obtain ⟨taken, ht, hp⟩ := h.taken
  have hend := h.stopped
  cases hqueue : p.queue with
  | nil =>
    exact ⟨_, _, h.replace hset none [] (by simp)
      ⟨taken, by simpa [hqueue] using ht, by simpa using hp⟩
      rfl ho (by simpa using hs) (by simp) h.inv (fun _ => .inl rfl) (fun _ => .inl rfl) rfl⟩
  | cons job queue =>
    rw [hqueue] at hq ht
    have hp' : (taken ++ [job]).Perm (List.map Prod.fst (settled ++ []) ++
        List.filterMap Prod.snd ((Worker.scanning (scan job), some job) :: others)) := by
      simpa using (List.perm_append_singleton job taken).trans
        ((hp.cons job).trans List.perm_middle.symm)
    refine ⟨_, _, h.replace hset (some job) [] (by simp) ⟨taken ++ [job], by simpa using ht, hp'⟩
      ⟨job, rfl, hq job List.mem_cons_self⟩ ho (by simpa using hs)
      (fun j hj => hq j (List.mem_cons_of_mem _ hj)) h.inv ?_ (by simp) rfl⟩
    rintro (he | hc)
    · exact absurd he (by simp [hqueue])
    · exact .inr hc

theorem moved_scanning {rest : Scan SchemeOutcome}
    (h : Ledger env jobs Inv Stands Lost scan ((.scanning rest, held) :: others) settled p w) :
    Accounted env jobs Inv Stands Lost scan
      (withStance p i (move env scan task (.scanning rest) p.queue p.deliveries w)) := by
  obtain ⟨j, rfl, hS⟩ := h.holds _ List.mem_cons_self
  have hj : j ∈ jobs := h.mem_jobs.mpr (by simp)
  obtain ⟨taken, ht, hp⟩ := h.taken
  -- A delivery moves the job from the hands of the worker to the settled ones.
  have hp' (y : Worker) (d : Delivery) : taken.Perm
      ((settled ++ [(j, d)]).map (·.1) ++ ((y, none) :: others).filterMap (·.2)) := by
    simpa using hp
  cases rest with
  | done o =>
    obtain ⟨ho, hs, hq⟩ := h.keep hn w fun k rest _ _ hS => hS
    refine ⟨_, _, h.replace hset none [(j, .outcome o)] (by simp) ⟨taken, ht, hp' _ _⟩ rfl
      ho ?_ hq h.inv id (by simp) rfl⟩
    rintro z hz
    rcases List.mem_append.mp hz with hz | hz
    · exact hs z hz
    · rw [List.mem_singleton.mp hz]; exact .inl ⟨o, rfl, hS⟩
  | ask q next =>
    obtain ⟨ho, hs, hq⟩ := h.keep hn (env.handler q w).2 fun k rest hk hne hS' =>
      hr.frame hj hk (fun he => hne (he ▸ rfl)) h.inv hS hS'
    have hi := hr.inv hj h.inv hS
    have hend : p.queue = [] ∨ w.cancelled = true →
        p.queue = [] ∨ (env.handler q w).2.cancelled = true := Or.imp_right cancelled_handler
    rcases hl : env.handler q w with ⟨e | a, w'⟩ <;> rw [hl] at ho hs hq hi hend
    · have hmove : move env scan task (.scanning (.ask q next)) p.queue p.deliveries w =
          (.failed, p.queue, p.deliveries ++ [.crashed env task e], w') := by simp only [move, hl]
      rw [hmove]
      refine ⟨_, _, h.replace hset none [(j, .crashed env task e)] (by simp)
        ⟨taken, ht, hp' _ _⟩ rfl ho ?_ hq hi hend (by simp) rfl⟩
      rintro z hz
      rcases List.mem_append.mp hz with hz | hz
      · exact hs z hz
      · rw [List.mem_singleton.mp hz]; exact .inr ⟨task, e, rfl, hr.crashed hj h.inv hS hl⟩
    · have hmove : move env scan task (.scanning (.ask q next)) p.queue p.deliveries w =
          (.scanning (next a), p.queue, p.deliveries, w') := by simp only [move, hl]
      rw [hmove]
      exact ⟨_, _, h.replace hset (some j) [] (by simp) ⟨taken, ht, by simpa using hp⟩
        ⟨j, rfl, hr.answered hj h.inv hS hl⟩ ho (by simpa using hs) hq hi hend
        (by simp) rfl⟩

end Moves

/-- **Every move of a worker keeps the account.** -/
theorem step (hr : Tracks env jobs Inv Stands Lost) (hn : jobs.Nodup)
    (h : Ledger env jobs Inv Stands Lost scan crew settled p w) (i : Nat) :
    Accounted env jobs Inv Stands Lost scan (Pool.step env scan i (p, w)) := by
  cases hx : p.workers[i]? with
  | none => exact ⟨crew, settled, by simpa only [Pool.step, hx] using h⟩
  | some x =>
    obtain ⟨held, others, hf, hset⟩ := h.focus hx
    have hstay : withStance p i (x, p.queue, p.deliveries, w) = (p, w) := by
      obtain ⟨hi, rfl⟩ := List.getElem?_eq_some_iff.mp hx
      simp [withStance, List.set_getElem_self]
    rw [step_eq hx]
    cases x with
    | ready => exact moved_ready hr hn hset hf
    | dequeuing => exact moved_dequeuing hn hset hf
    | scanning rest => exact moved_scanning hr hn hset hf
    | stopped => simp only [move, hstay]; exact ⟨crew, settled, h⟩
    | failed => simp only [move, hstay]; exact ⟨crew, settled, h⟩

end Ledger

theorem Accounted.drive (hr : Tracks env jobs Inv Stands Lost) (hn : jobs.Nodup)
    (schedule : List Nat)
    {s : Pool × World σ} (h : Accounted env jobs Inv Stands Lost scan s) :
    Accounted env jobs Inv Stands Lost scan (drive env scan schedule s) := by
  induction schedule generalizing s with
  | nil => exact h
  | cons i schedule ih =>
    obtain ⟨crew, settled, h⟩ := h
    exact ih (h.step hr hn i)

theorem accounted_opening (workerCount : Nat) (w : World σ)
    (hi : Inv (opening workerCount jobs w).2)
    (hs : ∀ j ∈ jobs, Stands j (scan j) (opening workerCount jobs w).2) :
    Accounted env jobs Inv Stands Lost scan (opening workerCount jobs w) := by
  refine ⟨List.replicate workerCount (.ready, none), [], ?_⟩
  exact {
    workers := by simp [opening, start]
    deliveries := rfl
    taken := ⟨[], rfl, by simp⟩
    holds := fun x hx => by rw [List.eq_of_mem_replicate hx]; rfl
    settles := by simp
    queued := hs
    inv := hi
    stopped := fun h => by simpa using List.eq_of_mem_replicate h
    failed := by rw [opening, start, List.countP_replicate]; rfl }

theorem length_workers_drive (env : Environment σ) (scan : Job → Scan SchemeOutcome)
    (schedule : List Nat) (s : Pool × World σ) :
    (drive env scan schedule s).1.workers.length = s.1.workers.length := by
  induction schedule generalizing s with
  | nil => rfl
  | cons i schedule ih =>
    refine (ih _).trans ?_
    obtain ⟨p, w⟩ := s
    cases hx : p.workers[i]? with
    | none => simp [step, hx]
    | some x => simp [step_eq hx, withStance]

/-- **The account at the end of a run.** The settled jobs are a prefix of the queue, and it is all
of the queue unless the token was cancelled or every worker failed. -/
theorem accounted_run (hr : Tracks env jobs Inv Stands Lost) (hn : jobs.Nodup) (workerCount : Nat)
    (schedule : List Nat) (w : World σ) (hi : Inv (opening workerCount jobs w).2)
    (hs : ∀ j ∈ jobs, Stands j (scan j) (opening workerCount jobs w).2)
    {p : Pool} {w' : World σ} (hp : run env scan workerCount jobs schedule w = (p, w')) :
    ∃ settled : List (Job × Delivery), p.deliveries = settled.map (·.2) ∧
      (∃ taken, taken ++ p.queue = jobs ∧ taken.Perm (settled.map (·.1))) ∧
      (∀ x ∈ settled, Settles env Stands Lost w' x.1 x.2) ∧
      (∀ j ∈ p.queue, Stands j (scan j) w') ∧ Inv w' ∧
      (p.queue = [] ∨ w'.cancelled = true ∨ p.failures.length = workerCount) := by
  obtain ⟨rest, hrun⟩ := run_eq_drive env scan workerCount jobs schedule w
  have hhalt := halted_run env scan workerCount jobs schedule w
  have hlen := length_workers_drive env scan (schedule ++ rest)
    (opening workerCount jobs w)
  obtain ⟨crew, settled, h⟩ :=
    (accounted_opening workerCount w hi hs).drive hr hn (schedule ++ rest)
  rw [← hrun, hp] at h hlen
  rw [hp] at hhalt
  -- Halted workers hold no job.
  have hnone : crew.filterMap (·.2) = [] := by
    refine List.filterMap_eq_nil_iff.mpr fun x hx => ?_
    have hx' := hhalt x.1 (h.workers.symm.subset (List.mem_map_of_mem hx))
    have hh := h.holds x hx
    rcases x with ⟨_ | _ | _ | _ | _, held⟩ <;> first | exact hh | exact hx'.elim
  obtain ⟨taken, ht, hperm⟩ := h.taken
  refine ⟨settled, h.deliveries, ⟨taken, ht, by simpa [hnone] using hperm⟩, h.settles, h.queued,
    h.inv, ?_⟩
  by_cases hstopped : .stopped ∈ p.workers
  · exact (h.stopped hstopped).imp_right .inl
  · have hfailed : ∀ x ∈ p.workers, x.isFailed = true := by
      intro x hx
      have hx' := hhalt x hx
      cases x with
      | stopped => exact absurd hx hstopped
      | failed => rfl
      | _ => exact hx'.elim
    refine .inr (.inr ?_)
    rw [h.failed, List.countP_eq_length.mpr hfailed, hlen]
    simp [opening, start]

end Pool

end FundRecovery.Discovery
