import Mathlib.Data.List.Sort
import Mathlib.Logic.Function.Basic

/-! Duties: things to be done for a subject, numbered as they come, and kept in places until they
are done. A place holds the duties of one subject, and no subject comes up twice. If nothing that
was taken on is dropped, all of it is done in the end, for each subject in reverse. -/

namespace Highp.Lib
variable {π ι : Type*}

/-- The duties that are held, with their subjects; for each duty that has come, the subject for
which it was taken on, if it was; and what has been done. -/
structure Duties (π ι : Type*) where
  held : π → Option (ι × List Nat)
  taken : List (Option ι)
  done : List (ι × Nat)

namespace Duties
variable {s t : Duties π ι}

section
variable [DecidableEq π]

inductive Step (s : Duties π ι) : Duties π ι → Prop
  /-- A free place takes the first duty of a new subject on. -/
  | take (p : π) (i : ι) (hfree : s.held p = none) (hnew : some i ∉ s.taken) :
    Step s ⟨Function.update s.held p (some (i, [s.taken.length])), s.taken ++ [some i], s.done⟩
  /-- A place takes one more on. -/
  | add (p : π) (i : ι) (ns : List Nat) (hp : s.held p = some (i, ns)) :
    Step s ⟨Function.update s.held p (some (i, ns ++ [s.taken.length])), s.taken ++ [some i],
      s.done⟩
  /-- Nobody takes it on. -/
  | decline : Step s ⟨s.held, s.taken ++ [none], s.done⟩
  /-- The duties of one place go to a free one. -/
  | move (p q : π) (hfree : s.held q = none) :
    Step s ⟨Function.update (Function.update s.held p none) q (s.held p), s.taken, s.done⟩
  /-- The duties of a place are done, the last one first. -/
  | finish (p : π) (i : ι) (ns : List Nat) (hp : s.held p = some (i, ns)) :
    Step s ⟨Function.update s.held p none, s.taken, s.done ++ ns.reverse.map (i, ·)⟩

end

/-- Each duty that was taken on is held or done, and a subject is held in one place, with nothing
of it done, or nowhere. -/
structure Inv (s : Duties π ι) : Prop where
  sorted : ∀ {p i ns}, s.held p = some (i, ns) → ns.Pairwise (· < ·)
  subject : ∀ {p i ns}, s.held p = some (i, ns) → ∀ n ∈ ns, s.taken[n]? = some (some i)
  known : ∀ {p i ns}, s.held p = some (i, ns) → some i ∈ s.taken
  alone : ∀ {p q i ns ms}, s.held p = some (i, ns) → s.held q = some (i, ms) → p = q
  untouched : ∀ {p i ns}, s.held p = some (i, ns) → ∀ e ∈ s.done, e.1 ≠ i
  kept : ∀ n i, s.taken[n]? = some (some i) →
    (∃ p ns, s.held p = some (i, ns) ∧ n ∈ ns) ∨ (i, n) ∈ s.done
  doneFor : ∀ e ∈ s.done, s.taken[e.2]? = some (some e.1)
  descending : s.done.Pairwise fun e f => e.1 = f.1 → f.2 < e.2

theorem inv_start : Inv (⟨fun _ => none, [], []⟩ : Duties π ι) :=
  ⟨by simp, by simp, by simp, by simp, by simp, by simp, by simp, List.Pairwise.nil⟩

theorem lt_of_getElem? {α : Type*} {xs : List α} {n : Nat} {x : α} (h : xs[n]? = some x) :
    n < xs.length := (List.getElem?_eq_some_iff.mp h).1

theorem getElem?_concat {α : Type*} {xs : List α} {n : Nat} {y : α} (h : xs[n]? = some y)
    (x : α) : (xs ++ [x])[n]? = some y := by
  rw [List.getElem?_append_left (lt_of_getElem? h)]
  exact h

/-- The last element of a list with one more. -/
theorem getElem?_concat_cases {α : Type*} {xs : List α} {n : Nat} {x y : α}
    (h : (xs ++ [x])[n]? = some y) : xs[n]? = some y ∨ n = xs.length ∧ x = y := by
  rcases Nat.lt_or_ge n xs.length with hlt | hge
  · rw [List.getElem?_append_left hlt] at h
    exact .inl h
  · have hl := lt_of_getElem? h
    rw [List.length_append, List.length_singleton] at hl
    obtain rfl : n = xs.length := by omega
    rw [List.getElem?_concat_length] at h
    exact .inr ⟨rfl, Option.some.inj h⟩

theorem Inv.decline (h : Inv s) : Inv ⟨s.held, s.taken ++ [none], s.done⟩ := by
  refine ⟨h.sorted, ?_, ?_, h.alone, h.untouched, ?_, ?_, h.descending⟩
  · exact fun hp n hn => getElem?_concat (h.subject hp n hn) none
  · exact fun hp => List.mem_append_left _ (h.known hp)
  · intro n i hn
    rcases getElem?_concat_cases hn with hn | ⟨_, hn⟩
    · exact h.kept n i hn
    · cases hn
  · exact fun e he => getElem?_concat (h.doneFor e he) none

section
variable [DecidableEq π]

/-- Who holds something after one place has changed. -/
theorem update_cases {α : Type*} {held : π → Option α} {p q : π} {x : Option α} {y : α}
    (h : Function.update held p x q = some y) : q = p ∧ x = some y ∨ q ≠ p ∧ held q = some y := by
  by_cases hq : q = p
  · subst hq
    rw [Function.update_self] at h
    exact .inl ⟨rfl, h⟩
  · rw [Function.update_of_ne hq] at h
    exact .inr ⟨hq, h⟩

/-- A place gets one more duty, of its own subject or of a new one. -/
theorem Inv.grow (h : Inv s) {p : π} {i : ι} (ns : List Nat)
    (hp : s.held p = none ∧ ns = [] ∧ some i ∉ s.taken ∨ s.held p = some (i, ns)) :
    Inv ⟨Function.update s.held p (some (i, ns ++ [s.taken.length])), s.taken ++ [some i],
      s.done⟩ := by
  have hold : ∀ n ∈ ns, s.held p = some (i, ns) := by
    intro n hn
    rcases hp with ⟨_, rfl, _⟩ | hp
    · cases hn
    · exact hp
  have hcases : ∀ {q j ms}, Function.update s.held p (some (i, ns ++ [s.taken.length])) q =
      some (j, ms) → q = p ∧ j = i ∧ ms = ns ++ [s.taken.length] ∨
        q ≠ p ∧ s.held q = some (j, ms) := by
    intro q j ms hq
    rcases update_cases hq with ⟨hqp, hx⟩ | hother
    · cases hx
      exact .inl ⟨hqp, rfl, rfl⟩
    · exact .inr hother
  -- the subject is held by nobody else, and nothing of it has been done
  have hother : ∀ {q ms}, s.held q = some (i, ms) → q = p := by
    intro q ms hq
    rcases hp with ⟨_, _, hnew⟩ | hp
    · exact absurd (h.known hq) hnew
    · exact h.alone hq hp
  have hdone : ∀ e ∈ s.done, e.1 ≠ i := by
    rcases hp with ⟨_, _, hnew⟩ | hp
    · rintro e he rfl
      exact hnew (List.mem_of_getElem? (h.doneFor e he))
    · exact h.untouched hp
  refine ⟨?_, ?_, ?_, ?_, ?_, ?_, ?_, h.descending⟩
  · intro q j ms hq
    rcases hcases hq with ⟨_, _, rfl⟩ | ⟨_, hq⟩
    · rw [List.pairwise_append]
      refine ⟨?_, List.pairwise_singleton _ _, fun m hm n hn => ?_⟩
      · rcases hp with ⟨_, rfl, _⟩ | hp
        · exact List.Pairwise.nil
        · exact h.sorted hp
      · rw [List.mem_singleton.mp hn]
        exact lt_of_getElem? (h.subject (hold m hm) m hm)
    · exact h.sorted hq
  · intro q j ms hq n hn
    rcases hcases hq with ⟨_, rfl, rfl⟩ | ⟨_, hq⟩
    · rcases List.mem_append.mp hn with hn | hn
      · exact getElem?_concat (h.subject (hold n hn) n hn) _
      · rw [List.mem_singleton.mp hn]
        exact List.getElem?_concat_length
    · exact getElem?_concat (h.subject hq n hn) _
  · intro q j ms hq
    rcases hcases hq with ⟨_, rfl, _⟩ | ⟨_, hq⟩
    · exact List.mem_append_right _ (List.mem_singleton_self _)
    · exact List.mem_append_left _ (h.known hq)
  · intro q r j ms ls hq hr
    rcases hcases hq with ⟨hqp, rfl, _⟩ | ⟨hqp, hq'⟩
    · rcases hcases hr with ⟨hrp, _, _⟩ | ⟨_, hr'⟩
      · exact hqp.trans hrp.symm
      · exact hqp.trans (hother hr').symm
    · rcases hcases hr with ⟨_, rfl, _⟩ | ⟨_, hr'⟩
      · exact absurd (hother hq') hqp
      · exact h.alone hq' hr'
  · intro q j ms hq
    rcases hcases hq with ⟨_, rfl, _⟩ | ⟨_, hq⟩
    · exact hdone
    · exact h.untouched hq
  · intro n j hn
    rcases getElem?_concat_cases hn with hn | ⟨rfl, hj⟩
    · rcases h.kept n j hn with ⟨q, ms, hq, hm⟩ | hd
      · by_cases hqp : q = p
        · subst hqp
          rcases hp with ⟨hp, _⟩ | hp
          · cases hp.symm.trans hq
          · cases hp.symm.trans hq
            exact .inl ⟨q, _, Function.update_self .., List.mem_append_left _ hm⟩
        · exact .inl ⟨q, ms, (Function.update_of_ne hqp _ _).trans hq, hm⟩
      · exact .inr hd
    · cases hj
      have hm : s.taken.length ∈ ns ++ [s.taken.length] := by simp
      exact .inl ⟨p, _, Function.update_self .., hm⟩
  · exact fun e he => getElem?_concat (h.doneFor e he) _

/-- The duties are held in another place. -/
theorem Inv.move (h : Inv s) {p q : π} (hfree : s.held q = none) :
    Inv ⟨Function.update (Function.update s.held p none) q (s.held p), s.taken, s.done⟩ := by
  -- whoever holds something now got it from one place, and different holders from different ones
  have hback : ∀ {r i ns}, Function.update (Function.update s.held p none) q (s.held p) r =
      some (i, ns) → ∃ r', s.held r' = some (i, ns) ∧ (r = q ∧ r' = p ∨ r' = r ∧ r ≠ p) := by
    intro r i ns hr
    rcases update_cases hr with ⟨hrq, hp⟩ | ⟨_, hr⟩
    · exact ⟨p, hp, .inl ⟨hrq, rfl⟩⟩
    · rcases update_cases hr with ⟨_, hnone⟩ | ⟨hrp, hr⟩
      · cases hnone
      · exact ⟨r, hr, .inr ⟨rfl, hrp⟩⟩
  refine ⟨?_, ?_, ?_, ?_, ?_, ?_, h.doneFor, h.descending⟩
  · intro r i ns hr
    obtain ⟨r', hr', _⟩ := hback hr
    exact h.sorted hr'
  · intro r i ns hr
    obtain ⟨r', hr', _⟩ := hback hr
    exact h.subject hr'
  · intro r i ns hr
    obtain ⟨r', hr', _⟩ := hback hr
    exact h.known hr'
  · intro r u i ns ms hr hu
    obtain ⟨r', hr', hplace⟩ := hback hr
    obtain ⟨u', hu', hplace'⟩ := hback hu
    have heq := h.alone hr' hu'
    rcases hplace with ⟨rfl, rfl⟩ | ⟨rfl, hrp⟩
    · rcases hplace' with ⟨rfl, _⟩ | ⟨rfl, hup⟩
      · rfl
      · exact absurd heq.symm hup
    · rcases hplace' with ⟨_, rfl⟩ | ⟨rfl, _⟩
      · exact absurd heq hrp
      · exact heq
  · intro r i ns hr
    obtain ⟨r', hr', _⟩ := hback hr
    exact h.untouched hr'
  · intro n i hn
    rcases h.kept n i hn with ⟨r, ns, hr, hm⟩ | hd
    · by_cases hrp : r = p
      · subst hrp
        exact .inl ⟨q, ns, (Function.update_self ..).trans hr, hm⟩
      · have hrq : r ≠ q := by
          rintro rfl
          cases hfree.symm.trans hr
        have hstay := (Function.update_of_ne hrq (s.held p) (Function.update s.held p none)).trans
          (Function.update_of_ne hrp none s.held)
        exact .inl ⟨r, ns, hstay.trans hr, hm⟩
    · exact .inr hd

theorem Inv.finish (h : Inv s) {p : π} {i : ι} {ns : List Nat} (hp : s.held p = some (i, ns)) :
    Inv ⟨Function.update s.held p none, s.taken, s.done ++ ns.reverse.map (i, ·)⟩ := by
  have hback : ∀ {q j ms}, Function.update s.held p none q = some (j, ms) →
      q ≠ p ∧ s.held q = some (j, ms) := by
    intro q j ms hq
    rcases update_cases hq with ⟨_, hnone⟩ | hother
    · cases hnone
    · exact hother
  have hnew : ∀ {e}, e ∈ ns.reverse.map (i, ·) → e.1 = i ∧ e.2 ∈ ns := by
    intro e he
    obtain ⟨n, hn, rfl⟩ := List.mem_map.mp he
    exact ⟨rfl, List.mem_reverse.mp hn⟩
  refine ⟨?_, ?_, ?_, ?_, ?_, ?_, ?_, ?_⟩
  · exact fun hq => h.sorted (hback hq).2
  · exact fun hq => h.subject (hback hq).2
  · exact fun hq => h.known (hback hq).2
  · exact fun hq hr => h.alone (hback hq).2 (hback hr).2
  · intro q j ms hq e he hej
    obtain ⟨hqp, hq'⟩ := hback hq
    rcases List.mem_append.mp he with he | he
    · exact h.untouched hq' e he hej
    · obtain rfl : j = i := hej.symm.trans (hnew he).1
      exact hqp (h.alone hq' hp)
  · intro n j hn
    rcases h.kept n j hn with ⟨q, ms, hq, hm⟩ | hd
    · by_cases hqp : q = p
      · subst hqp
        cases hp.symm.trans hq
        exact .inr (List.mem_append_right _
          (List.mem_map.mpr ⟨n, List.mem_reverse.mpr hm, rfl⟩))
      · exact .inl ⟨q, ms, (Function.update_of_ne hqp _ _).trans hq, hm⟩
    · exact .inr (List.mem_append_left _ hd)
  · intro e he
    rcases List.mem_append.mp he with he | he
    · exact h.doneFor e he
    · obtain ⟨hi, hn⟩ := hnew he
      rw [hi]
      exact h.subject hp _ hn
  · rw [List.pairwise_append]
    refine ⟨h.descending, ?_, fun e he f hf hef => ?_⟩
    · rw [List.pairwise_map, List.pairwise_reverse]
      refine (h.sorted hp).imp ?_
      intro m n hlt _
      exact hlt
    · exact absurd (hef.trans (hnew hf).1) (h.untouched hp e he)

theorem inv_step (h : Inv s) (hs : Step s t) : Inv t := by
  cases hs with
  | take p i hfree hnew => exact h.grow [] (.inl ⟨hfree, rfl, hnew⟩)
  | add p i ns hp => exact h.grow ns (.inr hp)
  | decline => exact h.decline
  | move p q hfree => exact h.move hfree
  | finish p i ns hp => exact h.finish hp

end

/-! ## In the end -/

theorem Inv.done_nodup (h : Inv s) : s.done.Nodup := by
  refine h.descending.imp_of_mem ?_
  rintro e _ he _ hlt rfl
  exact Nat.lt_irrefl _ (hlt rfl)

/-- When nothing is held any more, everything that was taken on has been done. -/
theorem Inv.mem_done (h : Inv s) (hnone : ∀ p, s.held p = none) {i : ι} {n : Nat} :
    (i, n) ∈ s.done ↔ s.taken[n]? = some (some i) := by
  refine ⟨h.doneFor (i, n), fun ht => ?_⟩
  rcases h.kept n i ht with ⟨p, ns, hp, _⟩ | hd
  · cases (hnone p).symm.trans hp
  · exact hd

section
variable [DecidableEq ι]

/-- The duties that were taken on for a subject, in order. -/
def takenFor (s : Duties π ι) (i : ι) : List Nat :=
  (List.range s.taken.length).filter fun n => s.taken[n]? = some (some i)

/-- Those that have been done for it, in order. -/
def doneOf (s : Duties π ι) (i : ι) : List Nat :=
  (s.done.filter fun e => e.1 = i).map Prod.snd

/-- What was taken on last was done first. -/
theorem Inv.all_done (h : Inv s) (hnone : ∀ p, s.held p = none) (i : ι) :
    s.doneOf i = (s.takenFor i).reverse := by
  have hdone : (s.doneOf i).Pairwise (· > ·) := by
    rw [doneOf, List.pairwise_map]
    refine List.Pairwise.imp_of_mem ?_ (h.descending.filter _)
    intro e f he hf hlt
    have hei : e.1 = i := by simpa using (List.mem_filter.mp he).2
    have hfi : f.1 = i := by simpa using (List.mem_filter.mp hf).2
    exact hlt (hei.trans hfi.symm)
  have htaken : (s.takenFor i).reverse.Pairwise (· > ·) := by
    rw [List.pairwise_reverse]
    exact List.pairwise_lt_range.filter _
  refine List.Pairwise.eq_of_mem_iff hdone htaken fun n => ?_
  have hmem : n ∈ s.doneOf i ↔ (i, n) ∈ s.done := by
    simp [doneOf]
  rw [hmem, h.mem_done hnone, List.mem_reverse, takenFor, List.mem_filter, List.mem_range,
    decide_eq_true_iff]
  exact ⟨fun ht => ⟨lt_of_getElem? ht, ht⟩, And.right⟩

end
end Duties
end Highp.Lib
