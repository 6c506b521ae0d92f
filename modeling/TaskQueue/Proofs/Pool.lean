import TaskQueue.Pool
import TaskQueue.Proofs.Trail

/-!
A pool in use. Objects are taken, changed while they are out, and given back in any order. The pool
has never more at hand than it may keep; what is at hand and what is out are together no more than
were ever out at once, and no fewer than of these the pool may keep.
-/

namespace TaskQueue.Pool

variable {pool : Pool}

@[simp] theorem idle_acquire (pool : Pool) : pool.acquire.2.idle = pool.idle - 1 := by
  unfold acquire idle
  cases pool.free <;> rfl

@[simp] theorem idle_release (pool : Pool) (lease : Lease) :
    (pool.release lease).idle = if pool.idle < pool.capacity then pool.idle + 1 else pool.idle := by
  unfold release
  split <;> rfl

theorem idle_release_le (pool : Pool) (lease : Lease) :
    (pool.release lease).idle ≤ pool.idle + 1 := by
  rw [idle_release]
  split <;> omega

@[simp] theorem capacity_acquire (pool : Pool) : pool.acquire.2.capacity = pool.capacity := by
  unfold acquire
  cases pool.free <;> rfl

@[simp] theorem capacity_release (pool : Pool) (lease : Lease) :
    (pool.release lease).capacity = pool.capacity := by
  unfold release
  split <;> rfl

def Clean (pool : Pool) : Prop := ∀ lease ∈ pool.free, lease.param = TaskParam.empty

theorem Clean.acquire (clean : pool.Clean) :
    pool.acquire.1.param = TaskParam.empty ∧ pool.acquire.2.Clean := by
  unfold Clean Pool.acquire at *
  cases free : pool.free with
  | nil => exact ⟨rfl, by simp⟩
  | cons lease rest =>
      rw [free] at clean
      exact ⟨clean lease List.mem_cons_self,
        fun other taken => clean other (List.mem_cons_of_mem _ taken)⟩

theorem Clean.release (clean : pool.Clean) (lease : Lease) : (pool.release lease).Clean := by
  unfold Pool.release
  split
  · intro other taken
    rcases List.mem_cons.mp taken with rfl | old
    · rfl
    · exact clean other old
  · exact clean

inductive Use
  | acquire
  | change (place : Nat) (param : TaskParam)
  | drop (place : Nat)

structure Traffic where
  pool : Pool
  held : List Lease

namespace Traffic

def ofCapacity (capacity : Nat) : Traffic := ⟨Pool.ofCapacity capacity, []⟩

def live (traffic : Traffic) : Nat := traffic.held.length

def step (traffic : Traffic) : Use → Option Traffic
  | .acquire => some ⟨traffic.pool.acquire.2, traffic.held ++ [traffic.pool.acquire.1]⟩
  | .change place param =>
      traffic.held[place]?.map fun lease =>
        { traffic with held := traffic.held.set place { lease with param } }
  | .drop place =>
      traffic.held[place]?.map fun lease =>
        ⟨traffic.pool.release lease, traffic.held.eraseIdx place⟩

/-- The most objects that were ever out at once. -/
def peak (course : List (Traffic × Use)) (now : Traffic) : Nat :=
  course.foldr (fun moment most => max moment.1.live most) now.live

theorem peak_append (course : List (Traffic × Use)) (before after : Traffic) (use : Use) :
    peak (course ++ [(before, use)]) after = max (peak course before) after.live := by
  induction course with
  | nil => rfl
  | cons moment rest ih =>
      unfold peak at ih ⊢
      rw [List.cons_append, List.foldr_cons, List.foldr_cons, ih, Nat.max_assoc]

/-- The account of a pool that may keep `capacity` objects, of which at most `most` were out. -/
structure Balanced (capacity most : Nat) (traffic : Traffic) : Prop where
  keeps : traffic.pool.capacity = capacity
  clean : traffic.pool.Clean
  room : traffic.pool.idle ≤ capacity
  atMost : traffic.pool.idle + traffic.live ≤ most
  atLeast : min capacity most ≤ traffic.pool.idle + traffic.live

variable {capacity most : Nat} {before after : Traffic} {course : List (Traffic × Use)}

theorem Balanced.acquired (balanced : Balanced capacity most before)
    (stepped : before.step .acquire = some after) :
    Balanced capacity (max most after.live) after := by
  obtain ⟨own, clean, room, atMost, atLeast⟩ := balanced
  obtain rfl := Option.some.inj stepped
  have idle := idle_acquire before.pool
  have live : Traffic.live ⟨before.pool.acquire.2, before.held ++ [before.pool.acquire.1]⟩ =
      before.live + 1 := by
    simp [Traffic.live]
  refine ⟨(capacity_acquire _).trans own, clean.acquire.2, ?_, ?_, ?_⟩
  · dsimp only
    omega
  · rw [live]
    dsimp only
    omega
  · rw [live]
    dsimp only
    omega

theorem Balanced.changed {place : Nat} {param : TaskParam}
    (balanced : Balanced capacity most before)
    (stepped : before.step (.change place param) = some after) :
    Balanced capacity (max most after.live) after := by
  obtain ⟨own, clean, room, atMost, atLeast⟩ := balanced
  obtain ⟨lease, _, rfl⟩ := Option.map_eq_some_iff.mp stepped
  have live : Traffic.live { before with held := before.held.set place { lease with param } } =
      before.live := by
    simp [Traffic.live]
  have same : max most before.live = most := by omega
  rw [live, same]
  exact ⟨own, clean, room, live ▸ atMost, live ▸ atLeast⟩

theorem Balanced.dropped {place : Nat} (balanced : Balanced capacity most before)
    (stepped : before.step (.drop place) = some after) :
    Balanced capacity (max most after.live) after := by
  obtain ⟨own, clean, room, atMost, atLeast⟩ := balanced
  obtain ⟨lease, found, rfl⟩ := Option.map_eq_some_iff.mp stepped
  have within := (List.getElem?_eq_some_iff.mp found).1
  have live : Traffic.live ⟨before.pool.release lease, before.held.eraseIdx place⟩ + 1 =
      before.live := by
    simp only [Traffic.live, List.length_eraseIdx_of_lt within]
    omega
  have idle := idle_release before.pool lease
  refine ⟨(capacity_release _ _).trans own, clean.release lease, ?_, ?_, ?_⟩
  · dsimp only
    split at idle <;> omega
  · dsimp only
    split at idle <;> omega
  · dsimp only
    split at idle <;> omega

theorem balanced (trail : Trail step (ofCapacity capacity) course after) :
    Balanced capacity (peak course after) after := by
  induction trail with
  | start => exact ⟨rfl, by simp [Clean, ofCapacity, Pool.ofCapacity], Nat.zero_le _, Nat.le_refl _,
      Nat.min_le_right _ _⟩
  | @step _ _ _ use _ stepped ih =>
      rw [peak_append]
      cases use with
      | acquire => exact ih.acquired stepped
      | change place param => exact ih.changed stepped
      | drop place => exact ih.dropped stepped

/-- How many objects a pool has at hand: never more than it may keep, whatever is taken is empty,
and once everything is back there are as many as were ever out at once, if so many may be kept. -/
theorem occupancy (trail : Trail step (ofCapacity capacity) course after) :
    after.pool.idle ≤ capacity ∧
      (∃ lease pool, after.step .acquire = some ⟨pool, after.held ++ [lease]⟩ ∧
        lease.param = TaskParam.empty) ∧
      min capacity (peak course after) ≤ after.pool.idle + after.live ∧
      after.pool.idle + after.live ≤ peak course after ∧
      (after.held = [] → after.pool.idle = min capacity (peak course after)) := by
  obtain ⟨_, clean, room, atMost, atLeast⟩ := balanced trail
  refine ⟨room, ⟨_, _, rfl, clean.acquire.1⟩, atLeast, atMost, ?_⟩
  intro allBack
  have none : after.live = 0 := by rw [live, allBack]; rfl
  omega

def crowdedUses : List Use :=
  [.acquire, .acquire, .acquire, .change 1 (TaskParam.ofName "t" .null), .drop 1, .drop 1, .drop 0]

theorem occupancy_crowded :
    ∃ course now, Trail step (ofCapacity 2) course now ∧ now.held = [] ∧ peak course now = 3 ∧
      now.pool.idle = 2 := by
  have followed : follow step (ofCapacity 2) crowdedUses = some _ := rfl
  have trail := Trail.start.follow followed
  exact ⟨_, _, trail, rfl, rfl, (occupancy trail).2.2.2.2 rfl⟩

end Traffic

end TaskQueue.Pool
