import Sift.Proofs.Order.Sowing
import Sift.Proofs.Plan.Reordered

/-!
# What is done without reading on

What a node does once its value has been read, or when there is none, is a list of jobs
(`Node.tasks`): to make a test, to deny a loop that has no array, or to replay a loop over an array
that has been captured. Each gives its bucket a value unless that is known already.

`Job.Gives` tells which value that can be, by the slots that can be seen and by nothing else. So what
a list of jobs leaves can be told without saying in which order they are done (`Job.sows_all`).
-/

namespace Sift

open Resolution

variable {c : Course} {s : Setting} {k : Outlook} {w w' : Walker}

/-! ## 1. Jobs -/

/-- Something that is done without reading on. -/
inductive Job
  /-- A test is made of a value. -/
  | ask (v : Value) (t : Test)
  /-- A loop has no array. -/
  | deny (l : Loop)
  /-- A loop is run over an array that has been captured. -/
  | replay (l : Loop)

namespace Job

/-- The bucket that the job is for. -/
def bucket : Job → Nat
  | ask _ t => t.bucket
  | deny l | replay l => l.bucket

/-- Does the job, unless its bucket is known. -/
def run : Job → Walk Unit
  | ask v t => Walk.test v t
  | deny l => Walk.markIfUnknown l.bucket false
  | replay l => Walk.runCaptured l.target l.halting

/-- **What a job can give its bucket**, by what the slots hold. -/
def Gives (c : Course) (s : Setting) (k : Outlook) (slots : Slots) : Job → Bool → Prop
  | ask v t, u => u = t.check.holds s.decimals (slots.value c.data) v
  | deny _, u => u = false
  | replay l, u => l.Gives c s k slots u

/-- A job under an outlook. -/
inductive Belongs (c : Course) (k : Outlook) : Job → Prop
  | ask {v : Value} {t : Test} (test : t.Belongs c k) : (ask v t).Belongs c k
  | deny {l : Loop} (loop : l.Belongs c k) : (deny l).Belongs c k
  | replay {l : Loop} (loop : l.Belongs c k) (waits : l.Waits c k) : (replay l).Belongs c k

variable {j : Job}

theorem Belongs.view (h : j.Belongs c k) : k.View c j.bucket := by
  cases h with
  | ask h => exact h.bucket.view h.clear
  | deny h | replay h => exact h.fits.bucket.view h.clear

/-- Nothing but a mark gives the bucket of a job a value. -/
theorem Belongs.tip (h : j.Belongs c k) :
    (c.tree.node j.bucket).kind = .leaf ∨ (c.tree.node j.bucket).kind = .barrier := by
  cases h with
  | ask h => exact .inl h.leaf
  | deny h | replay h => exact .inr h.fits.kind

theorem Gives.congr {slots slots' : Slots} {u : Bool} (hg : j.Gives c s k slots u)
    (h : j.Belongs c k) (hs : ∀ i, k.sight i → slots'[i]? = slots[i]?) :
    j.Gives c s k slots' u := by
  cases h with
  | @ask v t h =>
    refine hg.trans (Check.holds_congr fun i hi => ?_)
    rw [Slots.value, Slots.value, hs i (h.reads i hi).2]
  | deny => exact hg
  | replay _ waits => exact Loop.Gives.congr hg waits hs

/-- **A job gives what it can.** -/
theorem sows (h : j.Belongs c k) (hv : s.bound = c.data.length + 1) (hw : w.Under c k)
    (hs : s.isSettled w.state = false) :
    Walk.Sows c s k (fun b u => b = j.bucket ∧ j.Gives c s k w.slots u) (· = j.bucket) w j.run := by
  cases h with
  | ask h => exact Walk.sows_test h hw hs
  | deny h => exact Walk.sows_deny h hw hs
  | replay h waits => exact Walk.sows_replay h waits hv hw hs

/-- What one of several jobs can give its bucket. -/
def Given (c : Course) (s : Setting) (k : Outlook) (jobs : List Job) (slots : Slots) (b : Nat)
    (u : Bool) : Prop :=
  ∃ j ∈ jobs, b = j.bucket ∧ j.Gives c s k slots u

/-- **Jobs give what they can**, in any order. -/
theorem sows_all (hk : k.Apt c s) (hv : s.bound = c.data.length + 1) : ∀ {jobs : List Job}
    {w : Walker}, (∀ j ∈ jobs, j.Belongs c k) → w.Under c k → s.isSettled w.state = false →
    Walk.Sows c s k (Given c s k jobs w.slots) (fun b => ∃ j ∈ jobs, b = j.bucket) w
      (jobs.forM run)
  | [], _, _, hw, hs => Walk.sows_pure hw hs nofun
  | j :: rest, w, hj, hw, hs => by
    rw [List.forM_eq_forM, List.forM_cons]
    have hrest : ∀ i ∈ rest, i.Belongs c k := fun i h => hj i (List.mem_cons_of_mem _ h)
    -- what comes after the first job sees the same slots
    have after (w' : Walker) (h : Sown c k (fun b u => b = j.bucket ∧ j.Gives c s k w.slots u) w w')
        (hs' : s.isSettled w'.state = false) :
        Walk.Sows c s k (Given c s k rest w.slots) (fun b => ∃ i ∈ rest, b = i.bucket) w'
          (rest.forM run) := by
      refine (sows_all hk hv hrest h.under hs').mono (fun b u hg => ?_) fun _ h => h
      obtain ⟨i, hi, hb, hg⟩ := hg
      exact ⟨i, hi, hb, hg.congr (hrest i hi) fun m hm => (h.slots m hm).symm⟩
    refine ((sows (hj j List.mem_cons_self) hv hw hs).next hk ?_ after).mono ?_ ?_
    · rintro _ rfl
      exact (hj j List.mem_cons_self).view
    · rintro b u (⟨hb, hg⟩ | ⟨i, hi, hb, hg⟩)
      · exact ⟨j, List.mem_cons_self, hb, hg⟩
      · exact ⟨i, List.mem_cons_of_mem _ hi, hb, hg⟩
    · rintro b ⟨i, hi, hb⟩
      rcases List.mem_cons.mp hi with rfl | hi
      · exact .inl hb
      · exact .inr ⟨i, hi, hb⟩

end Job

/-! ## 2. Tasks -/

/-- What a node does with a value that has been read, between and after the jobs for its loops and
    for its children. -/
def Node.tasks (n : Node) (v : Value) (loops children : List Job) : List Job :=
  n.tests.map (.ask v) ++ loops ++ children ++ n.afterTests.map (.ask .missing) ++
    n.afterLoops.map .replay

mutual

/-- What a node does when there is no value. -/
def Node.jobs : Node → List Job
  | ⟨_, tests, loops, children, afterTests, afterLoops⟩ =>
    tests.map (.ask .missing) ++ loops.map .deny ++ Node.jobsOfAll children ++
      afterTests.map (.ask .missing) ++ afterLoops.map .replay

/-- What several children do so. -/
def Node.jobsOfAll : List (String × Node) → List Job
  | [] => []
  | (_, n) :: rest => n.jobs ++ Node.jobsOfAll rest

end

namespace Node

theorem jobsOfAll_eq : ∀ children : List (String × Node),
    jobsOfAll children = children.flatMap fun c => c.2.jobs
  | [] => rfl
  | (_, _) :: rest => by rw [jobsOfAll, jobsOfAll_eq rest, List.flatMap_cons]

theorem jobs_eq (n : Node) :
    n.jobs = n.tasks .missing (n.loops.map .deny) (n.children.flatMap fun c => c.2.jobs) := by
  cases n
  rw [jobs, jobsOfAll_eq]
  rfl

/-- **What a node does with its value**, done as jobs. -/
theorem tasks_run (n : Node) (v : Value) (loops children : List Job) :
    (n.tasks v loops children).forM Job.run = (do
      n.tests.forM (Walk.test v)
      loops.forM Job.run
      children.forM Job.run
      Walk.after n.afterTests (n.afterLoops.map fun l => (l.target, l.halting))) := by
  simp [tasks, Walk.after]
  rfl

theorem failLoops_eq (loops : List Loop) :
    Walk.failLoops (loops.map Loop.halting) = (loops.map Job.deny).forM Job.run := by
  simp [Walk.failLoops, Loop.halting_bucket, Job.run]

theorem missingAll_of_each : ∀ {children : List (String × Node)},
    (∀ c ∈ children, c.2.halting.missing = c.2.jobs.forM Job.run) →
    Walk.missingAll (children.map fun c => (c.1, c.2.halting)) =
      (children.flatMap fun c => c.2.jobs).forM Job.run
  | [], _ => rfl
  | c :: rest, h => by
    have hrest := missingAll_of_each fun c hc => h c (List.mem_cons_of_mem _ hc)
    unfold Walk.missingAll at hrest ⊢
    simp only [List.map_cons, List.flatMap_cons, List.forM_eq_forM, List.forM_cons,
      List.forM_append] at hrest ⊢
    rw [hrest, h c List.mem_cons_self]
    rfl

/-- **What a node does without a value**, done as jobs. -/
theorem missing_eq (n : Node) : n.halting.missing = n.jobs.forM Job.run := by
  induction n using Node.induct with
  | h n children _ _ =>
    rw [jobs_eq, tasks_run, ← failLoops_eq, ← missingAll_of_each children, halting_eq]
    rfl

theorem missingAll_eq (children : List (String × Node)) :
    Walk.missingAll (children.map fun c => (c.1, c.2.halting)) =
      (children.flatMap fun c => c.2.jobs).forM Job.run :=
  missingAll_of_each fun c _ => c.2.missing_eq

/-- What is left to do for the loops of a node when its value has been read. -/
def loopTasks (n : Node) (token : Token) : List Job :=
  if token.kind = .arrayStart then [] else n.loops.map .deny

/-- What is left to do for the children so. -/
def childTasks (n : Node) (token : Token) : List Job :=
  if token.kind = .objectStart then [] else n.children.flatMap fun c => c.2.jobs

/-- **What a node does with a value that has been read**: it is captured, and the rest are jobs. -/
theorem finish_eq (n : Node) (token : Token) (v : Value) :
    n.halting.finish token v = (do
      Walk.capture token v n.slot
      (n.tasks v (n.loopTasks token) (n.childTasks token)).forM Job.run) := by
  have unlessOf {kind : TokenKind} {jobs : List Job} :
      Walk.unlessOf kind token (jobs.forM Job.run) =
        (if token.kind = kind then [] else jobs).forM Job.run := by
    unfold Walk.unlessOf
    split <;> rfl
  rw [tasks_run, loopTasks, childTasks, ← unlessOf, ← unlessOf, ← failLoops_eq, ← missingAll_eq,
    halting_eq]
  rfl

variable {n n' : Node} {token : Token} {v : Value}

theorem mem_tasks {j : Job} {loops children : List Job} :
    j ∈ n.tasks v loops children ↔ (∃ t ∈ n.tests, j = .ask v t) ∨ j ∈ loops ∨ j ∈ children ∨
      (∃ t ∈ n.afterTests, j = .ask .missing t) ∨ ∃ l ∈ n.afterLoops, j = .replay l := by
  simp only [tasks, List.mem_append, List.mem_map, or_assoc, eq_comm]

/-! ## 3. Tasks under an outlook -/

theorem Belongs.waiting (h : n.Belongs c k) {l : Loop} (hl : l ∈ n.afterLoops) : l.Waits c k := by
  obtain ⟨i, ht, hi⟩ := h.fits.target hl
  exact ⟨⟨i, ht, hi, h.sees.target hl i ht⟩, h.waits _ (.here hl)⟩

theorem Belongs.of_tasks (h : n.Belongs c k) {loops children : List Job}
    (hloops : ∀ j ∈ loops, j.Belongs c k) (hchildren : ∀ j ∈ children, j.Belongs c k) :
    ∀ j ∈ n.tasks v loops children, j.Belongs c k := by
  intro j hj
  rcases mem_tasks.mp hj with ⟨t, ht, rfl⟩ | hj | hj | ⟨t, ht, rfl⟩ | ⟨l, hl, rfl⟩
  · exact .ask (h.test (List.mem_append_left _ ht))
  · exact hloops j hj
  · exact hchildren j hj
  · exact .ask (h.test (List.mem_append_right _ ht))
  · exact .replay (h.loop (List.mem_append_right _ hl)) (h.waiting hl)

theorem Belongs.of_deny (h : n.Belongs c k) : ∀ j ∈ n.loops.map Job.deny, j.Belongs c k := by
  intro j hj
  obtain ⟨l, hl, rfl⟩ := List.mem_map.mp hj
  exact .deny (h.loop (List.mem_append_left _ hl))

/-- The jobs of a node belong where it does. -/
theorem Belongs.of_jobs : n.Belongs c k → ∀ j ∈ n.jobs, j.Belongs c k := by
  induction n using Node.induct with
  | h n children _ _ =>
    intro h
    rw [jobs_eq]
    refine h.of_tasks h.of_deny fun j hj => ?_
    obtain ⟨child, hc, hj⟩ := List.mem_flatMap.mp hj
    exact children child hc (h.child hc) j hj

theorem Belongs.of_childJobs (h : n.Belongs c k) :
    ∀ j ∈ n.children.flatMap fun c => c.2.jobs, j.Belongs c k := by
  intro j hj
  obtain ⟨child, hc, hj⟩ := List.mem_flatMap.mp hj
  exact (h.child hc).of_jobs j hj

/-! ## 4. Buckets of tasks -/

theorem tasks_map_bucket (loops children : List Job) : (n.tasks v loops children).map Job.bucket =
    n.tests.map (·.bucket) ++ loops.map Job.bucket ++ children.map Job.bucket ++
      n.afterTests.map (·.bucket) ++ n.afterLoops.map (·.bucket) := by
  simp only [tasks, List.map_append, List.map_map]
  rfl

theorem map_bucket_deny (loops : List Loop) :
    (loops.map Job.deny).map Job.bucket = loops.map (·.bucket) := by
  rw [List.map_map]
  rfl

theorem perm_of_count {α : Type} [DecidableEq α] {a b d e f : List α} :
    (a ++ b ++ d ++ e ++ f).Perm (a ++ e ++ (b ++ f) ++ d) := by
  rw [List.perm_iff_count]
  intro x
  simp only [List.count_append]
  omega

/-- A node has one job for each of its buckets. -/
theorem jobs_buckets (n : Node) : (n.jobs.map Job.bucket).Perm n.buckets := by
  induction n using Node.induct with
  | h n children _ _ =>
    rw [jobs_eq, tasks_map_bucket, map_bucket_deny, buckets_eq, allTests, allLoops]
    simp only [List.map_append, List.map_flatMap]
    exact perm_of_count.trans (List.Perm.append_left _ (List.Perm.flatMap_left _ children))

theorem childJobs_buckets (n : Node) : ((n.children.flatMap fun c => c.2.jobs).map Job.bucket).Perm
    (n.children.flatMap fun c => c.2.buckets) := by
  rw [List.map_flatMap]
  exact List.Perm.flatMap_left _ fun c _ => c.2.jobs_buckets

theorem Belongs.childJobs_nodup (h : n.Belongs c k) :
    ((n.children.flatMap fun c => c.2.jobs).map Job.bucket).Nodup := by
  have hbuckets := h.sees.buckets
  rw [buckets_eq] at hbuckets
  exact n.childJobs_buckets.nodup_iff.mpr hbuckets.of_append_right

theorem Belongs.denied_nodup (h : n.Belongs c k) :
    ((n.loops.map Job.deny).map Job.bucket).Nodup := by
  have hbuckets := h.sees.buckets
  rw [buckets_eq, allLoops, List.map_append] at hbuckets
  rw [map_bucket_deny]
  exact hbuckets.of_append_left.of_append_right.of_append_left

theorem loopTasks_sublist (n : Node) (token : Token) :
    (n.loopTasks token).Sublist (n.loops.map .deny) := by
  unfold loopTasks
  split
  · exact List.nil_sublist _
  · exact .refl _

theorem childTasks_sublist (n : Node) (token : Token) :
    (n.childTasks token).Sublist (n.children.flatMap fun c => c.2.jobs) := by
  unfold childTasks
  split
  · exact List.nil_sublist _
  · exact .refl _

/-- The tasks of a node are for different buckets. -/
theorem Belongs.tasks_nodup (h : n.Belongs c k) {loops children : List Job}
    (hloops : loops.Sublist (n.loops.map .deny))
    (hchildren : children.Sublist (n.children.flatMap fun c => c.2.jobs)) :
    ((n.tasks v loops children).map Job.bucket).Nodup := by
  have hjobs : (n.jobs.map Job.bucket).Nodup := n.jobs_buckets.nodup_iff.mpr h.sees.buckets
  refine hjobs.sublist ?_
  rw [jobs_eq, tasks_map_bucket, tasks_map_bucket]
  exact ((((List.Sublist.refl _).append (hloops.map _)).append (hchildren.map _)).append
    (List.Sublist.refl _)).append (List.Sublist.refl _)

/-- In another order a node has tasks for the same buckets. -/
theorem Reordered.tasks_buckets (h : n.Reordered n') {loops loops' children children' : List Job}
    (hloops : (loops.map Job.bucket).Perm (loops'.map Job.bucket))
    (hchildren : (children.map Job.bucket).Perm (children'.map Job.bucket)) :
    ((n.tasks v loops children).map Job.bucket).Perm
      ((n'.tasks v loops' children').map Job.bucket) := by
  have hafter : n'.afterLoops.map (·.bucket) = n.afterLoops.map (·.bucket) :=
    map_bucket_of_forall₂ h.afterLoops
  rw [tasks_map_bucket, tasks_map_bucket, h.tests, h.afterTests, hafter]
  exact (((List.Perm.append_left _ hloops).append hchildren).append_right _).append_right _

theorem Reordered.denied_buckets (h : n.Reordered n') :
    ((n.loops.map Job.deny).map Job.bucket).Perm ((n'.loops.map Job.deny).map Job.bucket) := by
  rw [map_bucket_deny, map_bucket_deny, map_bucket_of_forall₂ h.loops]

theorem Reordered.childJobs_buckets (h : n.Reordered n') :
    ((n.children.flatMap fun c => c.2.jobs).map Job.bucket).Perm
      ((n'.children.flatMap fun c => c.2.jobs).map Job.bucket) := by
  obtain ⟨order, hperm, hall⟩ := h.children
  refine n.childJobs_buckets.trans (.trans ?_ n'.childJobs_buckets.symm)
  exact (hperm.flatMap_right _).trans
    (flatMap_perm_of_forall₂ hall fun _ _ _ hr => hr.node.buckets_perm)

end Node

end Sift
