import Mathlib.Data.List.Nodup
import Mathlib.Data.List.Perm.Basic
import Highp.Lib.Transition

/-! `ObjectPool` and `ThreadLocalPool`. Both keep two lists: one owns the objects, the other has
pointers to those that nobody uses. What `Acquire` hands out is a raw pointer, and neither list
knows of it. -/

namespace Highp.Memory
open Highp.Lib

/-- Where an object is. A place can be given out again once its object has been freed. -/
abbrev Address := Nat

/-- `_all` and `_available`, with the back of a vector at the end of its list. -/
structure LocalStorage where
  all : List Address
  available : List Address
  deriving DecidableEq

namespace LocalStorage

def empty : LocalStorage := ⟨[], []⟩

/-- `PreAllocate`, with the objects that `make_shared` makes. -/
def preAllocate (s : LocalStorage) (objects : List Address) : LocalStorage :=
  ⟨s.all ++ objects, s.available ++ objects⟩

/-- `Acquire`, with the object that is made when there is none. -/
def acquire (s : LocalStorage) (object : Address) : Address × LocalStorage :=
  match s.available.getLast? with
  | none => (object, { s with all := s.all ++ [object] })
  | some obj => (obj, { s with available := s.available.dropLast })

/-- `Release` of a pointer that is not null. -/
def release (s : LocalStorage) (obj : Address) : LocalStorage :=
  { s with available := s.available ++ [obj] }

def clear (_ : LocalStorage) : LocalStorage := empty

end LocalStorage

/-- Which class it is. One `ObjectPool` serves all threads behind its mutex; a `ThreadLocalPool`
has a `LocalStorage` for each thread. -/
inductive PoolClass
  | objectPool
  | threadLocalPool
  deriving DecidableEq

/-- The storage that a thread works on. -/
def PoolClass.storageOf : PoolClass → Nat → Nat
  | .objectPool, _ => 0
  | .threadLocalPool, thread => thread

/-- The storages of a pool. `out` has the pointers that were acquired and not yet released. -/
structure RawPool where
  storages : List LocalStorage
  out : List Address
  deriving DecidableEq

inductive PoolCall
  | preAllocate (thread : Nat) (objects : List Address)
  | acquire (thread : Nat) (object : Address)
  | release (thread : Nat) (obj : Option Address)
  | clear (thread : Nat)
  /-- The thread ends. -/
  | exit (thread : Nat)

namespace RawPool

/-- The objects that are owned. -/
def live (s : RawPool) : List Address := s.storages.flatMap LocalStorage.all

def available (s : RawPool) : List Address := s.storages.flatMap LocalStorage.available

/-- A storage and the list of acquired pointers after a call. -/
def put (s : RawPool) (i : Nat) (storage : LocalStorage) (out : List Address) : RawPool :=
  ⟨s.storages.set i storage, out⟩

/-- New objects are not where live ones are, and only acquired pointers are released. -/
def step (cls : PoolClass) (s : RawPool) : PoolCall → Option RawPool
  | .preAllocate thread objects =>
    match s.storages[cls.storageOf thread]? with
    | some storage =>
      if cls = .objectPool ∧ objects.Nodup ∧ ∀ a ∈ objects, a ∉ s.live then
        some (s.put (cls.storageOf thread) (storage.preAllocate objects) s.out)
      else none
    | none => none
  | .acquire thread object =>
    match s.storages[cls.storageOf thread]? with
    | some storage =>
      if object ∉ s.live then
        some (s.put (cls.storageOf thread) (storage.acquire object).2
          (s.out ++ [(storage.acquire object).1]))
      else none
    | none => none
  | .release thread obj =>
    match s.storages[cls.storageOf thread]?, obj with
    | some storage, some obj =>
      if obj ∈ s.out then
        some (s.put (cls.storageOf thread) (storage.release obj) (s.out.erase obj))
      else none
    | some _, none => some s
    | none, _ => none
  | .clear thread =>
    match s.storages[cls.storageOf thread]? with
    | some storage => some (s.put (cls.storageOf thread) storage.clear s.out)
    | none => none
  | .exit thread =>
    match cls, s.storages[thread]? with
    | .objectPool, _ => some s
    | .threadLocalPool, some _ => some (s.put thread .empty s.out)
    | .threadLocalPool, none => none

end RawPool

/-- A pool that has just been built; an `ObjectPool` has one storage. -/
def rawPoolSystem (cls : PoolClass) (threads : Nat) : System RawPool PoolCall where
  start :=
    match cls with
    | .objectPool => ⟨[.empty], []⟩
    | .threadLocalPool => ⟨List.replicate threads .empty, []⟩
  step := RawPool.step cls

/-- What the bookkeeping should be like. -/
structure RawPool.Sound (s : RawPool) : Prop where
  /-- What is available is owned. -/
  owned : ∀ a ∈ s.available, a ∈ s.live
  /-- No pointer is available twice, acquired twice, or both. -/
  once : (s.available ++ s.out).Nodup

/-- Nothing is destroyed that another storage has a pointer to. -/
def RawPool.Unshared (s : RawPool) (i : Nat) : Prop :=
  ∀ storage ∈ s.storages[i]?, ∀ other ∈ s.storages.eraseIdx i,
    ∀ a ∈ other.available, a ∉ storage.all

instance (s : RawPool) (i : Nat) : Decidable (s.Unshared i) := by
  unfold RawPool.Unshared
  infer_instance

/-- What callers, threads and the allocator have to take care of. -/
def RawPool.Careful (cls : PoolClass) (s : RawPool) : PoolCall → Prop
  | .preAllocate _ objects => ∀ a ∈ objects, a ∉ s.out
  | .acquire thread object =>
    ∀ storage ∈ s.storages[cls.storageOf thread]?, storage.available = [] → object ∉ s.out
  | .release _ (some obj) => obj ∈ s.live
  | .release _ none => True
  | .clear thread => s.Unshared (cls.storageOf thread)
  | .exit thread => cls = .threadLocalPool → s.Unshared thread

instance (cls : PoolClass) (s : RawPool) (l : PoolCall) : Decidable (s.Careful cls l) := by
  unfold RawPool.Careful
  cases l with
  | release _ obj => cases obj <;> infer_instance
  | _ => infer_instance

/-! ## What a call can do -/

namespace RawPool
variable {cls : PoolClass} {s t : RawPool} {thread : Nat}

theorem step_preAllocate {objects : List Address}
    (hs : s.step cls (.preAllocate thread objects) = some t) :
    ∃ storage, s.storages[cls.storageOf thread]? = some storage ∧ objects.Nodup ∧
      (∀ a ∈ objects, a ∉ s.live) ∧
      t = s.put (cls.storageOf thread) (storage.preAllocate objects) s.out := by
  simp only [step] at hs
  split at hs
  · rename_i storage hi
    split at hs
    · rename_i hok
      cases hs
      exact ⟨storage, hi, hok.2.1, hok.2.2, rfl⟩
    · cases hs
  · cases hs

theorem step_acquire {object : Address} (hs : s.step cls (.acquire thread object) = some t) :
    ∃ storage, s.storages[cls.storageOf thread]? = some storage ∧ object ∉ s.live ∧
      t = s.put (cls.storageOf thread) (storage.acquire object).2
        (s.out ++ [(storage.acquire object).1]) := by
  simp only [step] at hs
  split at hs
  · rename_i storage hi
    split at hs
    · rename_i hfresh
      cases hs
      exact ⟨storage, hi, hfresh, rfl⟩
    · cases hs
  · cases hs

theorem step_release {obj : Option Address} (hs : s.step cls (.release thread obj) = some t) :
    obj = none ∧ t = s ∨ ∃ storage a, obj = some a ∧
      s.storages[cls.storageOf thread]? = some storage ∧ a ∈ s.out ∧
      t = s.put (cls.storageOf thread) (storage.release a) (s.out.erase a) := by
  simp only [step] at hs
  split at hs
  · rename_i storage a hi
    split at hs
    · rename_i hout
      cases hs
      exact .inr ⟨storage, a, rfl, hi, hout, rfl⟩
    · cases hs
  · cases hs
    exact .inl ⟨rfl, rfl⟩
  · cases hs

theorem step_clear (hs : s.step cls (.clear thread) = some t) :
    ∃ storage, s.storages[cls.storageOf thread]? = some storage ∧
      t = s.put (cls.storageOf thread) .empty s.out := by
  simp only [step] at hs
  split at hs
  · rename_i storage hi
    cases hs
    exact ⟨storage, hi, rfl⟩
  · cases hs

/-- The end of a thread is nothing to an `ObjectPool`. -/
theorem step_exit (hs : s.step cls (.exit thread) = some t) :
    cls = .objectPool ∧ t = s ∨ cls = .threadLocalPool ∧
      ∃ storage, s.storages[thread]? = some storage ∧ t = s.put thread .empty s.out := by
  simp only [step] at hs
  split at hs
  · cases hs
    exact .inl ⟨rfl, rfl⟩
  · rename_i storage hi
    cases hs
    exact .inr ⟨rfl, storage, hi, rfl⟩
  · cases hs

end RawPool

/-! ## One storage and the others -/

namespace RawPool

/-- Everything that is owned is owned once. -/
def OwnedOnce (s : RawPool) : Prop := s.live.Nodup

/-- The objects, and the pointers, of the other storages. -/
def otherLive (s : RawPool) (i : Nat) : List Address :=
  (s.storages.eraseIdx i).flatMap LocalStorage.all

def otherAvailable (s : RawPool) (i : Nat) : List Address :=
  (s.storages.eraseIdx i).flatMap LocalStorage.available

section
variable {s : RawPool} {i : Nat} {storage storage' : LocalStorage} {out : List Address}

theorem flatMap_put (f : LocalStorage → List Address) (hi : s.storages[i]? = some storage) :
    ((s.put i storage' out).storages.flatMap f).Perm
      (f storage' ++ (s.storages.eraseIdx i).flatMap f) := by
  have hlt := (List.getElem?_eq_some_iff.mp hi).1
  exact (List.set_perm_cons_eraseIdx hlt storage').flatMap_right f

theorem flatMap_storages (f : LocalStorage → List Address) (hi : s.storages[i]? = some storage) :
    (s.storages.flatMap f).Perm (f storage ++ (s.storages.eraseIdx i).flatMap f) := by
  obtain ⟨hlt, rfl⟩ := List.getElem?_eq_some_iff.mp hi
  exact (List.getElem_cons_eraseIdx_perm hlt).symm.flatMap_right f

/-- What soundness is about when one storage is looked at. -/
structure SoundAt (s : RawPool) (i : Nat) (storage : LocalStorage) (out : List Address) : Prop where
  owned : ∀ a, a ∈ storage.available ∨ a ∈ s.otherAvailable i → a ∈ storage.all ∨ a ∈ s.otherLive i
  once : (storage.available ++ (s.otherAvailable i ++ out)).Nodup

theorem sound_put (hi : s.storages[i]? = some storage) :
    (s.put i storage' out).Sound ↔ s.SoundAt i storage' out := by
  have hall : (s.put i storage' out).live.Perm (storage'.all ++ s.otherLive i) := flatMap_put _ hi
  have hav : (s.put i storage' out).available.Perm (storage'.available ++ s.otherAvailable i) :=
    flatMap_put _ hi
  constructor
  · rintro ⟨howned, honce⟩
    refine ⟨fun a ha => ?_, ?_⟩
    · have h := hall.mem_iff.mp (howned a (hav.mem_iff.mpr (List.mem_append.mpr ha)))
      exact List.mem_append.mp h
    · rw [← List.append_assoc]
      exact (hav.append_right out).nodup_iff.mp honce
  · rintro ⟨howned, honce⟩
    refine ⟨fun a ha => ?_, ?_⟩
    · exact hall.mem_iff.mpr
        (List.mem_append.mpr (howned a (List.mem_append.mp (hav.mem_iff.mp ha))))
    · rw [← List.append_assoc] at honce
      exact (hav.append_right out).nodup_iff.mpr honce

theorem soundAt (hi : s.storages[i]? = some storage) (h : s.Sound) : s.SoundAt i storage s.out := by
  have hself : s.put i storage s.out = s := by
    obtain ⟨hlt, rfl⟩ := List.getElem?_eq_some_iff.mp hi
    rw [put, List.set_getElem_self]
  rw [← hself] at h
  exact (sound_put hi).mp h

theorem ownedOnce_put (hi : s.storages[i]? = some storage) :
    (s.put i storage' out).OwnedOnce ↔ (storage'.all ++ s.otherLive i).Nodup :=
  (flatMap_put LocalStorage.all hi).nodup_iff

theorem ownedOnce_at (hi : s.storages[i]? = some storage) :
    s.OwnedOnce ↔ (storage.all ++ s.otherLive i).Nodup :=
  (flatMap_storages LocalStorage.all hi).nodup_iff

theorem mem_live (hi : s.storages[i]? = some storage) {a : Address} :
    a ∈ s.live ↔ a ∈ storage.all ∨ a ∈ s.otherLive i :=
  (flatMap_storages LocalStorage.all hi).mem_iff.trans List.mem_append

/-! ## What each call does to a sound pool -/

/-- Pointers to new objects are put in. -/
theorem nodup_new {new old old' : List Address} (hp : old'.Perm (new ++ old)) (hnew : new.Nodup)
    (hold : old.Nodup) : old'.Nodup ↔ ∀ a ∈ new, a ∉ old := by
  rw [hp.nodup_iff, List.nodup_append']
  exact ⟨fun h a ha hb => h.2.2 ha hb, fun h => ⟨hnew, hold, fun a ha hb => h a ha hb⟩⟩

theorem SoundAt.not_mem (h : s.SoundAt i storage s.out) (hi : s.storages[i]? = some storage)
    {a : Address} (ha : a ∉ s.live) :
    a ∈ storage.available ++ (s.otherAvailable i ++ s.out) ↔ a ∈ s.out := by
  have hnot : ¬ (a ∈ storage.available ∨ a ∈ s.otherAvailable i) :=
    fun hm => ha ((mem_live hi).mpr (h.owned a hm))
  rw [List.mem_append, List.mem_append, ← or_assoc]
  exact ⟨fun hm => hm.resolve_left hnot, .inr⟩

theorem preAllocate_sound (hi : s.storages[i]? = some storage) (h : s.SoundAt i storage s.out)
    {objects : List Address} (hnew : objects.Nodup) (hfresh : ∀ a ∈ objects, a ∉ s.live) :
    s.SoundAt i (storage.preAllocate objects) s.out ↔ ∀ a ∈ objects, a ∉ s.out := by
  have hp : (storage.available ++ objects ++ (s.otherAvailable i ++ s.out)).Perm
      (objects ++ (storage.available ++ (s.otherAvailable i ++ s.out))) := by
    rw [List.append_assoc]
    exact List.perm_append_comm_assoc _ _ _
  have honce := nodup_new hp hnew h.once
  constructor
  · intro hs a ha hout
    exact honce.mp hs.once a ha ((h.not_mem hi (hfresh a ha)).mpr hout)
  · intro hcareful
    refine ⟨fun a ha => ?_, honce.mpr fun a ha hm => ?_⟩
    · simp only [LocalStorage.preAllocate, List.mem_append] at ha ⊢
      rcases ha with (ha | ha) | ha
      · exact (h.owned a (.inl ha)).imp_left .inl
      · exact .inl (.inr ha)
      · exact (h.owned a (.inr ha)).imp_left .inl
    · exact hcareful a ha ((h.not_mem hi (hfresh a ha)).mp hm)

/-- There is nothing available, so `Acquire` makes an object. -/
theorem acquire_new_sound (hi : s.storages[i]? = some storage) (h : s.SoundAt i storage s.out)
    (hnone : storage.available = []) {object : Address} (hfresh : object ∉ s.live) :
    s.SoundAt i (storage.acquire object).2 (s.out ++ [(storage.acquire object).1]) ↔
      object ∉ s.out := by
  have heq : storage.acquire object = (object, ⟨storage.all ++ [object], []⟩) := by
    simp [LocalStorage.acquire, hnone]
  have hbase : (s.otherAvailable i ++ s.out).Nodup := by simpa [hnone] using h.once
  have hp : ([] ++ (s.otherAvailable i ++ (s.out ++ [object]))).Perm
      ([object] ++ (s.otherAvailable i ++ s.out)) := by
    rw [List.nil_append, ← List.append_assoc]
    exact List.perm_append_comm
  have honce := nodup_new hp (List.nodup_singleton object) hbase
  have hmem : object ∈ s.otherAvailable i ++ s.out ↔ object ∈ s.out := by
    simpa [hnone] using h.not_mem hi hfresh
  rw [heq]
  constructor
  · intro hs hout
    exact honce.mp hs.once object (List.mem_singleton_self _) (hmem.mpr hout)
  · intro hcareful
    refine ⟨fun a ha => ?_, honce.mpr fun a ha hm => ?_⟩
    · have ha := ha.resolve_left (by simp)
      exact (h.owned a (.inr ha)).imp_left fun hm => List.mem_append_left _ hm
    · rw [List.mem_singleton.mp ha] at hm
      exact hcareful (hmem.mp hm)

/-- `Acquire` hands out the pointer at the back. -/
theorem acquire_back_sound (h : s.SoundAt i storage s.out) (hsome : storage.available ≠ [])
    (object : Address) :
    s.SoundAt i (storage.acquire object).2 (s.out ++ [(storage.acquire object).1]) := by
  have hlast := List.getLast?_eq_some_getLast hsome
  have heq : storage.acquire object = (storage.available.getLast hsome,
      { storage with available := storage.available.dropLast }) := by
    simp [LocalStorage.acquire, hlast]
  have hback := List.dropLast_append_getLast hsome
  rw [heq]
  refine ⟨fun a ha => ?_, ?_⟩
  · exact h.owned a (ha.imp_left fun hm => List.dropLast_subset _ hm)
  · have hp : (storage.available.dropLast ++ (s.otherAvailable i ++
        (s.out ++ [storage.available.getLast hsome]))).Perm
        (storage.available ++ (s.otherAvailable i ++ s.out)) := by
      conv_rhs => rw [← hback]
      rw [List.append_assoc, ← List.append_assoc (s.otherAvailable i)]
      exact List.perm_append_comm.append_left _
    exact hp.nodup_iff.mpr h.once

theorem release_sound (hi : s.storages[i]? = some storage) (h : s.SoundAt i storage s.out)
    {obj : Address} (hout : obj ∈ s.out) :
    s.SoundAt i (storage.release obj) (s.out.erase obj) ↔ obj ∈ s.live := by
  rw [mem_live hi]
  constructor
  · intro hs
    exact hs.owned obj (.inl (List.mem_append_right _ (List.mem_singleton_self obj)))
  · intro hlive
    refine ⟨fun a ha => ?_, ?_⟩
    · rcases ha with ha | ha
      · rcases List.mem_append.mp ha with ha | ha
        · exact h.owned a (.inl ha)
        · rw [List.mem_singleton.mp ha]
          exact hlive
      · exact h.owned a (.inr ha)
    · have hp : (storage.available ++ [obj] ++ (s.otherAvailable i ++ s.out.erase obj)).Perm
          (storage.available ++ (s.otherAvailable i ++ s.out)) := by
        rw [List.append_assoc]
        refine List.Perm.append_left _ ?_
        exact (List.perm_append_comm_assoc [obj] _ _).trans
          ((List.perm_cons_erase hout).symm.append_left _)
      exact hp.nodup_iff.mpr h.once

/-- The objects of a storage are destroyed. -/
theorem clear_sound (hi : s.storages[i]? = some storage) (h : s.SoundAt i storage s.out)
    (hl : s.OwnedOnce) : s.SoundAt i .empty s.out ↔ s.Unshared i := by
  have hdisjoint := (List.nodup_append'.mp ((ownedOnce_at hi).mp hl)).2.2
  constructor
  · intro hs storage' hi' other hother a ha hown
    cases hi.symm.trans hi'
    have hav : a ∈ s.otherAvailable i := List.mem_flatMap.mpr ⟨other, hother, ha⟩
    exact hdisjoint hown ((hs.owned a (.inr hav)).resolve_left (by simp [LocalStorage.empty]))
  · intro hu
    refine ⟨fun a ha => ?_, (List.nodup_append'.mp h.once).2.1⟩
    have hav := ha.resolve_left (by simp [LocalStorage.empty])
    obtain ⟨other, hother, hin⟩ := List.mem_flatMap.mp hav
    exact .inr ((h.owned a (.inr hav)).resolve_left (hu storage hi other hother a hin))

/-- New objects are owned once. -/
theorem ownedOnce_grow (h : s.OwnedOnce) (hi : s.storages[i]? = some storage)
    {objects : List Address} (hall : storage'.all = storage.all ++ objects) (hnew : objects.Nodup)
    (hfresh : ∀ a ∈ objects, a ∉ s.live) : (s.put i storage' out).OwnedOnce := by
  rw [ownedOnce_put hi, hall]
  have hp : (storage.all ++ objects ++ s.otherLive i).Perm
      (objects ++ (storage.all ++ s.otherLive i)) := by
    rw [List.append_assoc]
    exact List.perm_append_comm_assoc _ _ _
  refine (nodup_new hp hnew ((ownedOnce_at hi).mp h)).mpr fun a ha hm => hfresh a ha ?_
  exact (mem_live hi).mpr (List.mem_append.mp hm)

theorem ownedOnce_same (h : s.OwnedOnce) (hi : s.storages[i]? = some storage)
    (hall : storage'.all = storage.all) : (s.put i storage' out).OwnedOnce :=
  ownedOnce_grow h hi (hall.trans (List.append_nil _).symm) List.nodup_nil (by simp)

theorem ownedOnce_empty (h : s.OwnedOnce) (hi : s.storages[i]? = some storage) :
    (s.put i .empty out).OwnedOnce := by
  rw [ownedOnce_put hi]
  exact (List.nodup_append'.mp ((ownedOnce_at hi).mp h)).2.1

/-- Nothing that is owned is owned twice, whatever the callers do. -/
theorem ownedOnce_step {cls : PoolClass} {t : RawPool} {l : PoolCall} (h : s.OwnedOnce)
    (hs : s.step cls l = some t) : t.OwnedOnce := by
  cases l with
  | preAllocate thread objects =>
    obtain ⟨storage, hi, hnew, hfresh, rfl⟩ := step_preAllocate hs
    exact ownedOnce_grow h hi rfl hnew hfresh
  | acquire thread object =>
    obtain ⟨storage, hi, hfresh, rfl⟩ := step_acquire hs
    cases hav : storage.available.getLast? with
    | none =>
      have hall : (storage.acquire object).2.all = storage.all ++ [object] := by
        simp [LocalStorage.acquire, hav]
      refine ownedOnce_grow h hi hall (List.nodup_singleton object) fun a ha => ?_
      rw [List.mem_singleton.mp ha]
      exact hfresh
    | some obj => exact ownedOnce_same h hi (by simp [LocalStorage.acquire, hav])
  | release thread obj =>
    rcases step_release hs with ⟨_, rfl⟩ | ⟨storage, a, _, hi, _, rfl⟩
    · exact h
    · exact ownedOnce_same h hi rfl
  | clear thread =>
    obtain ⟨storage, hi, rfl⟩ := step_clear hs
    exact ownedOnce_empty h hi
  | exit thread =>
    rcases step_exit hs with ⟨_, rfl⟩ | ⟨_, storage, hi, rfl⟩
    · exact h
    · exact ownedOnce_empty h hi

/-- A call leaves a sound pool sound exactly if it is a careful one. -/
theorem sound_step {cls : PoolClass} {t : RawPool} {l : PoolCall} (h : s.Sound) (hl : s.OwnedOnce)
    (hs : s.step cls l = some t) : t.Sound ↔ s.Careful cls l := by
  cases l with
  | preAllocate thread objects =>
    obtain ⟨storage, hi, hnew, hfresh, rfl⟩ := step_preAllocate hs
    rw [sound_put hi, preAllocate_sound hi (soundAt hi h) hnew hfresh]
    rfl
  | acquire thread object =>
    obtain ⟨storage, hi, hfresh, rfl⟩ := step_acquire hs
    rw [sound_put hi]
    by_cases hav : storage.available = []
    · rw [acquire_new_sound hi (soundAt hi h) hav hfresh]
      exact ⟨fun hn _ _ _ => hn, fun hc => hc storage hi hav⟩
    · refine ⟨fun _ storage' hi' hav' => ?_, fun _ => ?_⟩
      · cases hi.symm.trans hi'
        exact absurd hav' hav
      · exact acquire_back_sound (soundAt hi h) hav object
  | release thread obj =>
    rcases step_release hs with ⟨rfl, rfl⟩ | ⟨storage, a, rfl, hi, hout, rfl⟩
    · exact ⟨fun _ => trivial, fun _ => h⟩
    · rw [sound_put hi, release_sound hi (soundAt hi h) hout]
      rfl
  | clear thread =>
    obtain ⟨storage, hi, rfl⟩ := step_clear hs
    rw [sound_put hi]
    exact clear_sound hi (soundAt hi h) hl
  | exit thread =>
    rcases step_exit hs with ⟨rfl, rfl⟩ | ⟨rfl, storage, hi, rfl⟩
    · exact ⟨fun _ hc => absurd hc (by decide), fun _ => h⟩
    · rw [sound_put hi, clear_sound hi (soundAt hi h) hl]
      exact ⟨fun hu _ => hu, fun hc => hc rfl⟩

end
end RawPool

theorem rawPool_start (cls : PoolClass) (threads : Nat) :
    (rawPoolSystem cls threads).start.Sound ∧ (rawPoolSystem cls threads).start.OwnedOnce := by
  have hempty : ∀ f : LocalStorage → List Address, f .empty = [] →
      (rawPoolSystem cls threads).start.storages.flatMap f = [] := by
    intro f hf
    apply List.flatMap_eq_nil_iff.mpr
    intro storage hstorage
    cases cls with
    | objectPool => rw [List.mem_singleton.mp hstorage, hf]
    | threadLocalPool => rw [List.eq_of_mem_replicate hstorage, hf]
  have hout : (rawPoolSystem cls threads).start.out = [] := by cases cls <;> rfl
  have hav : (rawPoolSystem cls threads).start.available = [] := hempty _ rfl
  refine ⟨⟨fun a ha => ?_, ?_⟩, ?_⟩
  · rw [hav] at ha
    cases ha
  · rw [hav, hout]
    exact List.nodup_nil
  · rw [RawPool.OwnedOnce, RawPool.live, hempty _ rfl]
    exact List.nodup_nil

/-- **When the bookkeeping of a pool is sound**: as long as every call is careful, and the first one
that is not breaks it. -/
theorem rawPool_sound (cls : PoolClass) (threads : Nat) (s : RawPool)
    (h : (rawPoolSystem cls threads).Reach (RawPool.Careful cls) s) :
    s.Sound ∧ ∀ l t, s.step cls l = some t → (t.Sound ↔ s.Careful cls l) := by
  have hinv : s.Sound ∧ s.OwnedOnce := by
    refine h.invariant (I := fun s => s.Sound ∧ s.OwnedOnce) (rawPool_start cls threads) ?_
    intro s t l _ hi hok hs
    exact ⟨(RawPool.sound_step hi.1 hi.2 hs).mpr hok, RawPool.ownedOnce_step hi.2 hs⟩
  exact ⟨hinv.1, fun _ _ hs => RawPool.sound_step hinv.1 hinv.2 hs⟩

/-- An object goes from one thread to another and is used there. -/
theorem rawPool_sound_shared : ∃ s : RawPool, s.Sound ∧ s.storages = [⟨[7], []⟩, ⟨[], []⟩] ∧
    s.out = [7] := by
  obtain ⟨s, hs, hp⟩ := System.reach_of_exec (rawPoolSystem .threadLocalPool 2)
    (RawPool.Careful .threadLocalPool) [.acquire 0 7, .release 1 (some 7), .acquire 1 9, .clear 1]
    (fun s => s = ⟨[⟨[7], []⟩, ⟨[], []⟩], [7]⟩) (by decide)
  obtain rfl := of_decide_eq_true hp
  exact ⟨_, (rawPool_sound .threadLocalPool 2 _ hs).1, rfl, rfl⟩

/-- **Pointers to dead and double objects**: released after `Clear`, released to another thread
before its own thread ended, and allocated twice at one place because the first object was
destroyed while it was acquired. -/
theorem rawPool_unsound :
    (rawPoolSystem .objectPool 1).exec System.always (rawPoolSystem .objectPool 1).start
      [.acquire 0 7, .clear 0, .release 0 (some 7), .acquire 0 9] = some ⟨[⟨[], []⟩], [7]⟩ ∧
    (rawPoolSystem .threadLocalPool 2).exec System.always
      (rawPoolSystem .threadLocalPool 2).start
      [.acquire 0 7, .release 1 (some 7), .exit 0] = some ⟨[⟨[], []⟩, ⟨[], [7]⟩], []⟩ ∧
    (rawPoolSystem .objectPool 1).exec System.always (rawPoolSystem .objectPool 1).start
      [.acquire 0 7, .clear 0, .acquire 0 7, .release 0 (some 7), .release 0 (some 7)] =
        some ⟨[⟨[7], [7, 7]⟩], []⟩ ∧
    ¬ RawPool.Sound ⟨[⟨[], []⟩, ⟨[], [7]⟩], []⟩ ∧ ¬ RawPool.Sound ⟨[⟨[7], [7, 7]⟩], []⟩ := by
  refine ⟨by decide, by decide, by decide, ?_, ?_⟩
  · intro h
    exact absurd (h.owned 7 (by decide)) (by decide)
  · intro h
    exact absurd h.once (by decide)

end Highp.Memory
