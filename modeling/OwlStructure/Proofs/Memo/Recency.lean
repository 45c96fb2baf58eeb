import OwlStructure.Proofs.Collections.MoveToFront
import OwlStructure.Proofs.Memo.SignatureCache

/-!
Which lookups find a kept result. A collector keeps the objects that were looked up in it last: its
objects are the first ones of a list in which every lookup moves its object to the front, however
long that list gets. In front of an object stand the others that were looked up after it, each once,
so the object is kept as long as they are fewer than there is room for. What is looked up in one
collector does not touch the other.
-/
namespace OwlStructure

universe u v

/-! ### The objects of which a result is kept -/

namespace Recent

variable {α : Type u} {β : Type v} {f : α → β} [DecidableEq α] {m : Recent f} {o : Shared α}
  {capacity : Nat} {alive : List (Shared α)} {t : Tally}

omit [DecidableEq α] in
/-- The objects of which a result is kept, the one asked for last in front. -/
def objects (m : Recent f) : List (Shared α) := m.entries.map MemoEntry.object

theorem find?_eq_none_iff : m.find? o = none ↔ o ∉ m.objects := by
  simp [find?, objects]

theorem exists_find?_iff : (∃ e, m.find? o = some e) ↔ o ∈ m.objects := by
  rw [← not_iff_not, ← find?_eq_none_iff, ← Option.isSome_iff_exists, Option.not_isSome_iff_eq_none]

omit [DecidableEq α] in
theorem Balanced.nodup_objects (h : m.Balanced capacity alive t) : m.objects.Nodup := by
  refine .of_map Shared.id ?_
  rw [objects, List.map_map]
  exact h.nodup_ids

/-- Whatever it finds, a lookup moves its object to the front; what has no room goes. -/
theorem Balanced.objects_lookup (h : m.Balanced capacity alive t) (o : Shared α) :
    (m.lookup capacity o).2.objects = (moveToFront m.objects o).take capacity := by
  have hothers : (m.others o).map MemoEntry.object =
      m.objects.filter fun x => decide (x ≠ o) := by
    rw [others, objects, List.filter_map]
    rfl
  cases hf : m.find? o with
  | some e =>
    have hroom := (h.perm_of_hit hf).length_eq.trans_le h.size_le
    have hmoved : (e :: m.others o).map MemoEntry.object = moveToFront m.objects o := by
      rw [List.map_cons, hothers, object_of_find? hf, moveToFront]
    rw [lookup_of_hit hf]
    show (e :: m.others o).map MemoEntry.object = _
    rw [← hmoved, List.take_of_length_le (by rwa [List.length_map])]
  | none =>
    have hmoved : moveToFront m.objects o = (MemoEntry.compute f o :: m.entries).map
        MemoEntry.object := by
      have hnot := find?_eq_none_iff.1 hf
      rw [moveToFront, List.filter_eq_self.2]
      · rfl
      · exact fun x hx => decide_eq_true (ne_of_mem_of_not_mem hx hnot)
    rw [lookup_of_miss hf, hmoved, ← List.map_take]
    rfl

/-- Just the lookups of kept objects count as hits. -/
theorem counts_lookup (capacity : Nat) (m : Recent f) (o : Shared α) :
    (m.lookup capacity o).2.hits = m.hits + (if o ∈ m.objects then 1 else 0) ∧
      (m.lookup capacity o).2.misses = m.misses + (if o ∈ m.objects then 0 else 1) := by
  cases hf : m.find? o with
  | some e =>
    rw [lookup_of_hit hf, if_pos (exists_find?_iff.1 ⟨e, hf⟩),
      if_pos (exists_find?_iff.1 ⟨e, hf⟩)]
    exact ⟨rfl, rfl⟩
  | none =>
    rw [lookup_of_miss hf, if_neg (find?_eq_none_iff.1 hf), if_neg (find?_eq_none_iff.1 hf)]
    exact ⟨rfl, rfl⟩

end Recent

namespace SignatureCache

variable {α : Type u}

/-- The two collectors of a cache. -/
inductive Collector where
  | signatures
  | anonymous
  deriving DecidableEq

namespace Collector

/-- A lookup of an object in a collector. -/
def lookup : Collector → Shared α → Event α
  | .signatures, o => .signatureOf o
  | .anonymous, o => .anonymousOf o

/-- The object that an event looks up in a collector. -/
def lookedUp? : Collector → Event α → Option (Shared α)
  | .signatures, .signatureOf o => some o
  | .anonymous, .anonymousOf o => some o
  | _, _ => none

def other : Collector → Collector
  | .signatures => .anonymous
  | .anonymous => .signatures

/-- An event that is no lookup in the other collector. -/
def concerns (c : Collector) (e : Event α) : Bool := (c.other.lookedUp? e).isNone

theorem lookedUp?_eq_some_iff {c : Collector} {e : Event α} {o : Shared α} :
    c.lookedUp? e = some o ↔ e = c.lookup o := by
  cases c <;> cases e <;> simp [lookedUp?, lookup]

/-- Of a list of events, those after the last lookup of an object in a collector. The object has
not been made since, so the lookup was one of the same object. -/
structure Since (c : Collector) (o : Shared α) (events since : List (Event α)) : Prop where
  split : ∃ before, events = before ++ c.lookup o :: since
  not_again : c.lookup o ∉ since
  not_made : .create o ∉ since

variable [DecidableEq α]

/-- The objects that are looked up in a collector. -/
def lookedUp (c : Collector) (events : List (Event α)) : Finset (Shared α) :=
  (events.filterMap c.lookedUp?).toFinset

/-- An object was looked up in a collector, nothing has been cleared since, and fewer others than
there is room for have been looked up there since. -/
def Recalls (c : Collector) (room : Nat) (o : Shared α) (events : List (Event α)) : Prop :=
  ∃ since, c.Since o events since ∧ .clear ∉ since ∧ (c.lookedUp since).card < room

end Collector

namespace Session

variable [HasEntities α]

/-- The objects of which a collector keeps a result. -/
def objects (s : Session α) : Collector → List (Shared α)
  | .signatures => s.cache.signatures.objects
  | .anonymous => s.cache.anonymous.objects

/-- Two sessions have the same entries and counts in a collector. -/
def SameIn (s t : Session α) : Collector → Prop
  | .signatures => s.cache.signatures = t.cache.signatures
  | .anonymous => s.cache.anonymous = t.cache.anonymous

variable [DecidableEq α] {s : Session α} {capacity : Nat} {c : Collector} {o : Shared α}
  {e : Event α} {events : List (Event α)}

theorem run_append (s : Session α) (first rest : List (Event α)) :
    s.run (first ++ rest) = (s.run first).run rest := List.foldl_append

theorem admitted_append {first rest : List (Event α)} :
    s.Admitted (first ++ rest) ↔ s.Admitted first ∧ (s.run first).Admitted rest := by
  induction first generalizing s with
  | nil => simp [Admitted, run]
  | cons e first ih =>
    simp only [List.cons_append, Admitted, ih, and_assoc]
    rfl

omit [DecidableEq α] in
theorem Sound.nodup_objects (h : s.Sound capacity) (c : Collector) : (s.objects c).Nodup := by
  cases c with
  | signatures => exact h.signatures.nodup_objects
  | anonymous => exact h.anonymous.nodup_objects

theorem Sound.objects_lookup (h : s.Sound capacity) (c : Collector) (o : Shared α) :
    (s.step (c.lookup o)).objects c = (moveToFront (s.objects c) o).take capacity := by
  cases c with
  | signatures => exact h.capacity_eq ▸ h.signatures.objects_lookup o
  | anonymous => exact h.capacity_eq ▸ h.anonymous.objects_lookup o

theorem objects_step_eq (h : c.lookedUp? e = none) (hpurge : e ≠ .purge) (hclear : e ≠ .clear) :
    (s.step e).objects c = s.objects c := by
  cases e with
  | create o | drop o => cases c <;> rfl
  | signatureOf o =>
    cases c with
    | signatures => cases h
    | anonymous => rfl
  | anonymousOf o =>
    cases c with
    | signatures => rfl
    | anonymous => cases h
  | purge => exact absurd rfl hpurge
  | clear => exact absurd rfl hclear

theorem objects_step_clear (s : Session α) (c : Collector) : (s.step .clear).objects c = [] := by
  cases c <;> rfl

theorem objects_step_subset (h : c.lookedUp? e = none) : (s.step e).objects c ⊆ s.objects c := by
  by_cases hclear : e = .clear
  · rw [hclear, objects_step_clear]
    exact List.nil_subset _
  · by_cases hpurge : e = .purge
    · subst hpurge
      cases c <;> exact List.map_subset _ List.filter_sublist.subset
    · rw [objects_step_eq h hpurge hclear]
      exact List.Subset.refl _

/-- An object comes to be kept through a lookup of its own. -/
theorem Sound.mem_objects_step (h : s.Sound capacity) (ho : o ∈ (s.step e).objects c) :
    e = c.lookup o ∨ o ∈ s.objects c := by
  cases hl : c.lookedUp? e with
  | none => exact .inr (objects_step_subset hl ho)
  | some x =>
    obtain rfl := Collector.lookedUp?_eq_some_iff.1 hl
    rw [h.objects_lookup] at ho
    rcases List.mem_cons.1 (List.mem_of_mem_take ho) with rfl | hm
    · exact .inl rfl
    · exact .inr (List.mem_filter.1 hm).1

/-- As long as nothing is purged or cleared, the objects are the first ones of a list in which every
lookup moves its object to the front. -/
theorem Sound.objects_run (h : s.Sound capacity) (ha : s.Admitted events)
    (hpurge : .purge ∉ events) (hclear : .clear ∉ events) {l : List (Shared α)} (hl : l.Nodup)
    (hs : s.objects c = l.take capacity) :
    (s.run events).objects c =
      ((events.filterMap c.lookedUp?).foldl moveToFront l).take capacity := by
  induction events generalizing s l with
  | nil => exact hs
  | cons e events ih =>
    obtain ⟨hnoPurge, hpurges⟩ := List.ne_and_not_mem_of_not_mem_cons hpurge
    obtain ⟨hnoClear, hclears⟩ := List.ne_and_not_mem_of_not_mem_cons hclear
    cases hx : c.lookedUp? e with
    | none =>
      rw [List.filterMap_cons_none hx]
      have hstep := objects_step_eq (s := s) hx hnoPurge.symm hnoClear.symm
      exact ih (h.step ha.1) ha.2 hpurges hclears hl (hstep.trans hs)
    | some x =>
      rw [List.filterMap_cons_some hx, List.foldl_cons]
      obtain rfl := Collector.lookedUp?_eq_some_iff.1 hx
      refine ih (h.step ha.1) ha.2 hpurges hclears (nodup_moveToFront hl x) ?_
      rw [h.objects_lookup, hs, take_moveToFront hl]

theorem Sound.mem_objects_run_lookup (h : s.Sound capacity) (ha : s.Admitted (c.lookup o :: events))
    (hpurge : .purge ∉ events) (hclear : .clear ∉ events) (hagain : c.lookup o ∉ events) :
    o ∈ (s.run (c.lookup o :: events)).objects c ↔ (c.lookedUp events).card < capacity := by
  have hnot : o ∉ events.filterMap c.lookedUp? := by
    rw [List.mem_filterMap]
    rintro ⟨e, he, hl⟩
    exact hagain (Collector.lookedUp?_eq_some_iff.1 hl ▸ he)
  have hrun := (h.step ha.1).objects_run ha.2 hpurge hclear
    (nodup_moveToFront (h.nodup_objects c) o) (h.objects_lookup c o)
  rw [Collector.lookedUp, ← mem_take_foldl_moveToFront hnot (s.objects c), ← hrun]
  rfl

omit [DecidableEq α] in
theorem mem_kept_of_mem_objects (h : o ∈ s.objects c) : o ∈ s.kept := by
  cases c with
  | signatures => exact List.mem_append_left _ h
  | anonymous => exact List.mem_append_right _ h

/-- An object that is kept was looked up after it was made, and not cleared away since. -/
theorem Sound.exists_since (h : s.Sound capacity) (hs : s.objects c = []) (ha : s.Admitted events)
    (ho : o ∈ (s.run events).objects c) : ∃ since, c.Since o events since ∧ .clear ∉ since := by
  induction events using List.reverseRecOn with
  | nil =>
    rw [Session.run, List.foldl_nil, hs] at ho
    cases ho
  | append_singleton events e ih =>
    obtain ⟨ha, he, -⟩ := admitted_append.1 ha
    rw [run_append] at ho
    by_cases hl : e = c.lookup o
    · subst hl
      exact ⟨[], ⟨⟨events, rfl⟩, List.not_mem_nil, List.not_mem_nil⟩, List.not_mem_nil⟩
    · have hkept := ((h.run ha).mem_objects_step ho).resolve_left hl
      obtain ⟨since, ⟨⟨before, hsplit⟩, hagain, hmade⟩, hclear⟩ := ih ha hkept
      -- a new object does not get the address of one that is kept
      have hmade' : e ≠ .create o := by
        rintro rfl
        exact he o (List.mem_append_right _ (mem_kept_of_mem_objects hkept)) rfl
      have hclear' : e ≠ .clear := by
        rintro rfl
        rw [Session.run, List.foldl_cons, List.foldl_nil, objects_step_clear] at ho
        cases ho
      refine ⟨since ++ [e], ⟨⟨before, ?_⟩, ?_, ?_⟩, ?_⟩
      · rw [hsplit, List.append_assoc, List.cons_append]
      · simp [hagain, Ne.symm hl]
      · simp [hmade, hmade'.symm]
      · simp [hclear, hclear'.symm]

/-- Unless something was purged since its last lookup, an object is kept just as long as fewer
others than there is room for are looked up. -/
theorem mem_objects_iff (ha : (start capacity : Session α).Admitted events)
    (hpurge : ∀ since, c.Since o events since → .purge ∉ since) :
    o ∈ ((start capacity).run events).objects c ↔ c.Recalls (max capacity 1) o events := by
  have hstart := sound_start (α := α) capacity
  have hempty : (start capacity : Session α).objects c = [] := by cases c <;> rfl
  have hcount {since : List (Event α)} (hs : c.Since o events since) (hclear : .clear ∉ since) :
      o ∈ ((start capacity).run events).objects c ↔
        (c.lookedUp since).card < max capacity 1 := by
    obtain ⟨before, rfl⟩ := hs.split
    obtain ⟨hbefore, hsince⟩ := admitted_append.1 ha
    rw [run_append]
    exact (hstart.run hbefore).mem_objects_run_lookup hsince (hpurge since hs) hclear hs.not_again
  constructor
  · intro ho
    obtain ⟨since, hs, hclear⟩ := hstart.exists_since hempty ha ho
    exact ⟨since, hs, hclear, (hcount hs hclear).1 ho⟩
  · rintro ⟨since, hs, hclear, hcard⟩
    exact (hcount hs hclear).2 hcard

theorem stats_lookup (s : Session α) (c : Collector) (o : Shared α) :
    (s.step (c.lookup o)).cache.stats.hits =
        s.cache.stats.hits + (if o ∈ s.objects c then 1 else 0) ∧
      (s.step (c.lookup o)).cache.stats.misses =
        s.cache.stats.misses + (if o ∈ s.objects c then 0 else 1) := by
  cases c with
  | signatures =>
    obtain ⟨hhits, hmisses⟩ := Recent.counts_lookup s.cache.capacity s.cache.signatures o
    exact ⟨(congrArg (· + _) hhits).trans (Nat.add_right_comm _ _ _),
      (congrArg (· + _) hmisses).trans (Nat.add_right_comm _ _ _)⟩
  | anonymous =>
    obtain ⟨hhits, hmisses⟩ := Recent.counts_lookup s.cache.capacity s.cache.anonymous o
    exact ⟨(congrArg (_ + ·) hhits).trans (Nat.add_assoc _ _ _).symm,
      (congrArg (_ + ·) hmisses).trans (Nat.add_assoc _ _ _).symm⟩

/-! ### One collector alone -/

/-- Two sessions agree on a collector and on what is alive; in the second, nothing was looked up in
the other collector. -/
structure Alone (c : Collector) (s t : Session α) : Prop where
  alive_eq : s.alive = t.alive
  capacity_eq : s.cache.capacity = t.cache.capacity
  same : s.SameIn t c
  objects_other : t.objects c.other = []

namespace Alone

variable {t : Session α}

theorem skip (h : Alone c s t) {x : Shared α} (he : c.other.lookedUp? e = some x) :
    Alone c (s.step e) t := by
  obtain rfl := Collector.lookedUp?_eq_some_iff.1 he
  cases c <;> exact ⟨h.alive_eq, h.capacity_eq, h.same, h.objects_other⟩

theorem step (h : Alone c s t) (he : c.other.lookedUp? e = none) :
    Alone c (s.step e) (t.step e) := by
  have hisAlive : s.isAlive = t.isAlive := by
    funext id
    rw [isAlive, h.alive_eq, isAlive]
  have hother : (t.step e).objects c.other = [] :=
    List.eq_nil_of_subset_nil (h.objects_other ▸ objects_step_subset he)
  obtain ⟨halive, hcapacity, hsame, -⟩ := h
  refine ⟨?_, ?_, ?_, hother⟩
  · cases e <;> simp only [Session.step, halive]
  · cases e <;> exact hcapacity
  · cases c with
    | signatures =>
      change s.cache.signatures = t.cache.signatures at hsame
      cases e with
      | anonymousOf o => cases he
      | _ => simp only [SameIn, Session.step, signatureOf, purge, clear, hsame, hcapacity, hisAlive]
    | anonymous =>
      change s.cache.anonymous = t.cache.anonymous at hsame
      cases e with
      | signatureOf o => cases he
      | _ => simp only [SameIn, Session.step, anonymousOf, purge, clear, hsame, hcapacity, hisAlive]

omit [DecidableEq α] in
theorem kept_subset (h : Alone c s t) : t.kept ⊆ s.kept := by
  cases c with
  | signatures =>
    have hsame : t.objects .signatures = s.objects .signatures :=
      congrArg Recent.objects (Eq.symm h.same)
    show t.objects .signatures ++ t.objects .anonymous ⊆ _
    rw [hsame, show t.objects .anonymous = [] from h.objects_other, List.append_nil]
    exact List.subset_append_left _ _
  | anonymous =>
    have hsame : t.objects .anonymous = s.objects .anonymous :=
      congrArg Recent.objects (Eq.symm h.same)
    show t.objects .signatures ++ t.objects .anonymous ⊆ _
    rw [hsame, show t.objects .signatures = [] from h.objects_other, List.nil_append]
    exact List.subset_append_right _ _

omit [DecidableEq α] in
/-- What a session admits, it admits without the lookups in one collector. -/
theorem admits (h : Alone c s t) (he : s.Admits e) : t.Admits e := by
  cases e with
  | create o =>
    intro x hx
    rcases List.mem_append.1 hx with hx | hx
    · exact he x (List.mem_append_left _ (h.alive_eq ▸ hx))
    · exact he x (List.mem_append_right _ (h.kept_subset hx))
  | signatureOf o => exact (congrArg (o ∈ ·) h.alive_eq).mp he
  | anonymousOf o => exact (congrArg (o ∈ ·) h.alive_eq).mp he
  | drop o => trivial
  | purge => trivial
  | clear => trivial

theorem run (h : Alone c s t) (ha : s.Admitted events) :
    t.Admitted (events.filter c.concerns) ∧
      Alone c (s.run events) (t.run (events.filter c.concerns)) := by
  induction events generalizing s t with
  | nil => exact ⟨trivial, h⟩
  | cons e events ih =>
    cases hl : c.other.lookedUp? e with
    | none =>
      rw [List.filter_cons_of_pos (by simp [Collector.concerns, hl])]
      obtain ⟨hadmitted, hrun⟩ := ih (h.step hl) ha.2
      exact ⟨⟨h.admits ha.1, hadmitted⟩, hrun⟩
    | some x =>
      rw [List.filter_cons_of_neg (by simp [Collector.concerns, hl])]
      exact ih (h.skip hl) ha.2

end Alone

end Session

/-- Which lookups find a kept result, in a cache of any capacity, of which zero counts as one, and
through any run in which objects are made, looked up while they are alive, and dropped. Provided
that nothing was purged since the last lookup of an object in a collector, a further lookup there
counts as a hit just when there has been such a lookup since the object was made, nothing has been
cleared since, and fewer other objects than there is room for have been looked up in that collector
since; otherwise it counts as a miss. The other collector has no part in this: without the lookups
in it, the run is admitted as well, and it leaves the collector with the same entries and counts. -/
theorem lookup_hits_iff [HasEntities α] [DecidableEq α] (capacity : Nat) (events : List (Event α))
    (c : Collector) (o : Shared α)
    (h : (Session.start capacity : Session α).Admitted (events ++ [c.lookup o])) :
    let s := (Session.start capacity : Session α).run events
    let s' := s.step (c.lookup o)
    ((∀ since, c.Since o events since → .purge ∉ since) →
      (s'.cache.stats.hits = s.cache.stats.hits + 1 ↔ c.Recalls (max capacity 1) o events) ∧
      (s'.cache.stats.misses = s.cache.stats.misses + 1 ↔ ¬ c.Recalls (max capacity 1) o events)) ∧
      (Session.start capacity : Session α).Admitted (events.filter c.concerns) ∧
      s.SameIn ((Session.start capacity).run (events.filter c.concerns)) c := by
  intro s s'
  have hadmitted := (Session.admitted_append.1 h).1
  have hstart : Session.Alone c (.start capacity : Session α) (.start capacity) :=
    ⟨rfl, rfl, by cases c <;> rfl, by cases c <;> rfl⟩
  obtain ⟨hfiltered, halone⟩ := hstart.run hadmitted
  refine ⟨fun hpurge => ?_, hfiltered, halone.same⟩
  obtain ⟨hhits, hmisses⟩ := s.stats_lookup c o
  rw [hhits, hmisses, ← Session.mem_objects_iff hadmitted hpurge]
  by_cases ho : o ∈ s.objects c <;> simp [s, ho]

/-- With room for two, an object is found again behind one that was looked up twice; what was looked
up in the other collector takes no room. -/
theorem lookup_hits_iff_repeated :
    let x : Shared Axiom := ⟨0, .symmetricObjectProperty (.named ⟨⟨"p"⟩⟩)⟩
    let y : Shared Axiom := ⟨1, x.value⟩
    let z : Shared Axiom := ⟨2, .transitiveObjectProperty (.named ⟨⟨"q"⟩⟩)⟩
    let events : List (Event Axiom) := [.create x, .create y, .create z, .signatureOf x,
      .signatureOf y, .anonymousOf z, .signatureOf y]
    let s := (Session.start 2 : Session Axiom).run events
    (Session.start 2 : Session Axiom).Admitted (events ++ [.signatureOf x]) ∧
      (∀ since, Collector.signatures.Since x events since → .purge ∉ since) ∧
      Collector.signatures.Recalls 2 x events ∧
      (s.step (.signatureOf x)).cache.stats.hits = s.cache.stats.hits + 1 := by
  intro x y z events s
  have hadmitted : (Session.start 2 : Session Axiom).Admitted (events ++ [.signatureOf x]) := by
    decide
  have hpurge (since : List (Event Axiom)) (hs : Collector.signatures.Since x events since) :
      .purge ∉ since := by
    obtain ⟨before, hsplit⟩ := hs.split
    intro hm
    have hevents : Event.purge ∈ events := by
      rw [hsplit]
      exact List.mem_append_right _ (List.mem_cons_of_mem _ hm)
    simp [events] at hevents
  have hrecalls : Collector.signatures.Recalls 2 x events := by
    refine ⟨[.signatureOf y, .anonymousOf z, .signatureOf y],
      ⟨⟨[.create x, .create y, .create z], rfl⟩, ?_, ?_⟩, ?_, by decide⟩ <;>
      simp [Collector.lookup, x, y]
  obtain ⟨hiff, -⟩ := lookup_hits_iff 2 events .signatures x hadmitted
  exact ⟨hadmitted, hpurge, hrecalls, (hiff hpurge).1.2 hrecalls⟩

end SignatureCache

end OwlStructure
