import OwlStructure.Memo.SignatureCache
import OwlStructure.Proofs.Memo.Recent

/-!
Runs of lookups in a signature cache, while objects are made and dropped, and entries are purged and
cleared. Through every run the cache answers what would be computed, both collectors stay in bounds,
and the counts of the cache agree with what has happened.
-/
namespace OwlStructure

namespace SignatureCache

universe u

variable {α : Type u}

/-- What can happen to a cache and to the objects that are looked up in it. -/
inductive Event (α : Type u) where
  | create (o : Shared α)
  | drop (o : Shared α)
  | signatureOf (o : Shared α)
  | anonymousOf (o : Shared α)
  | purge
  | clear

def Event.isLookup : Event α → Bool
  | .signatureOf _ | .anonymousOf _ => true
  | .create _ | .drop _ | .purge | .clear => false

/-- A cache, the objects that are alive, and an onlooker's counts for the two collectors. -/
structure Session (α : Type u) [HasEntities α] where
  cache : SignatureCache α
  alive : List (Shared α)
  signatures : Recent.Tally
  anonymous : Recent.Tally

namespace Session

variable [HasEntities α]

def start (capacity : Nat) : Session α := ⟨.empty capacity, [], ⟨0, 0⟩, ⟨0, 0⟩⟩

/-- Whether the object at an address is alive. -/
def isAlive (s : Session α) (id : Nat) : Bool := s.alive.any fun o => decide (o.id = id)

/-- The objects of which a result is kept. -/
def kept (s : Session α) : List (Shared α) :=
  (s.cache.signatures.entries.map MemoEntry.object) ++
    s.cache.anonymous.entries.map MemoEntry.object

variable [DecidableEq α]

def step (s : Session α) : Event α → Session α
  | .create o => { s with alive := o :: s.alive }
  | .drop o => { s with alive := s.alive.filter fun x => decide (x ≠ o) }
  | .signatureOf o =>
    { s with
      cache := (s.cache.signatureOf o).2
      signatures := { s.signatures with lookups := s.signatures.lookups + 1 } }
  | .anonymousOf o =>
    { s with
      cache := (s.cache.anonymousOf o).2
      anonymous := { s.anonymous with lookups := s.anonymous.lookups + 1 } }
  | .purge =>
    let signatures := s.signatures.removed + s.cache.signatures.dropped s.alive
    let anonymous := s.anonymous.removed + s.cache.anonymous.dropped s.alive
    { s with
      cache := (s.cache.purge s.isAlive).2
      signatures := { s.signatures with removed := signatures }
      anonymous := { s.anonymous with removed := anonymous } }
  | .clear =>
    let signatures := s.signatures.removed + s.cache.signatures.size
    let anonymous := s.anonymous.removed + s.cache.anonymous.size
    { s with
      cache := s.cache.clear
      signatures := { s.signatures with removed := signatures }
      anonymous := { s.anonymous with removed := anonymous } }

def run (s : Session α) (events : List (Event α)) : Session α := events.foldl step s

/-- A new object gets an address at which no other is alive and for which nothing is kept. Only
objects that are alive are looked up. -/
def Admits (s : Session α) : Event α → Prop
  | .create o => ∀ x ∈ s.alive ++ s.kept, x.id ≠ o.id
  | .signatureOf o | .anonymousOf o => o ∈ s.alive
  | .drop _ | .purge | .clear => True

/-- Each event of a run is admitted when it happens. -/
def Admitted (s : Session α) : List (Event α) → Prop
  | [] => True
  | e :: events => s.Admits e ∧ (s.step e).Admitted events

instance decidableAdmits (s : Session α) : (e : Event α) → Decidable (s.Admits e)
  | .create _ => inferInstanceAs (Decidable (∀ x ∈ _, _))
  | .signatureOf _ | .anonymousOf _ => inferInstanceAs (Decidable (_ ∈ _))
  | .drop _ | .purge | .clear => .isTrue trivial

instance decidableAdmitted (s : Session α) :
    (events : List (Event α)) → Decidable (s.Admitted events)
  | [] => .isTrue trivial
  | e :: events =>
    have := decidableAdmitted (s.step e) events
    inferInstanceAs (Decidable (_ ∧ _))

/-- The invariant of a run: no two objects that are alive share an address, and the collectors keep
their books. -/
structure Sound (s : Session α) (capacity : Nat) : Prop where
  capacity_eq : s.cache.capacity = capacity
  alive_eq : ∀ x ∈ s.alive, ∀ y ∈ s.alive, x.id = y.id → x = y
  signatures : s.cache.signatures.Balanced capacity s.alive s.signatures
  anonymous : s.cache.anonymous.Balanced capacity s.alive s.anonymous

variable {s : Session α} {capacity : Nat}

omit [DecidableEq α] in
theorem sound_start (capacity : Nat) : (start capacity : Session α).Sound (max capacity 1) where
  capacity_eq := rfl
  alive_eq x hx := by cases hx
  signatures := .empty _
  anonymous := .empty _

omit [DecidableEq α] in
/-- An entry's address belongs to an object that is alive just when the entry's object is alive. -/
theorem isAlive_iff {f : α → β} {m : Recent f} {t : Recent.Tally}
    (h : m.Balanced capacity s.alive t) {e : MemoEntry f} (he : e ∈ m.entries) :
    s.isAlive e.object.id = true ↔ e.object ∈ s.alive := by
  rw [isAlive, List.any_eq_true]
  constructor
  · rintro ⟨o, ho, hid⟩
    rwa [h.object_eq e he o ho (of_decide_eq_true hid).symm]
  · intro ho
    exact ⟨_, ho, decide_eq_true rfl⟩

theorem Sound.step (h : s.Sound capacity) {e : Event α} (he : s.Admits e) :
    (s.step e).Sound capacity := by
  cases e with
  | create o =>
    have hkept (x : Shared α) (hx : x ∈ s.kept) : x.id ≠ o.id := he x (List.mem_append_right _ hx)
    refine ⟨h.capacity_eq, ?_, h.signatures.create fun e hm => ?_,
      h.anonymous.create fun e hm => ?_⟩
    · have hne (x : Shared α) (hx : x ∈ s.alive) : x.id ≠ o.id := he x (List.mem_append_left _ hx)
      intro x hx y hy hid
      rcases List.mem_cons.1 hx with rfl | hxs <;> rcases List.mem_cons.1 hy with rfl | hys
      · rfl
      · exact absurd hid.symm (hne y hys)
      · exact absurd hid (hne x hxs)
      · exact h.alive_eq x hxs y hys hid
    · exact hkept _ (List.mem_append_left _ (List.mem_map_of_mem hm))
    · exact hkept _ (List.mem_append_right _ (List.mem_map_of_mem hm))
  | drop o =>
    have hsub : (s.alive.filter fun x => decide (x ≠ o)) ⊆ s.alive := List.filter_sublist.subset
    exact ⟨h.capacity_eq, fun x hx y hy => h.alive_eq x (hsub hx) y (hsub hy),
      h.signatures.drop hsub, h.anonymous.drop hsub⟩
  | signatureOf o =>
    have hlookup := h.signatures.lookup h.alive_eq he
    rw [← h.capacity_eq] at hlookup
    exact ⟨h.capacity_eq, h.alive_eq, h.capacity_eq ▸ hlookup, h.anonymous⟩
  | anonymousOf o =>
    have hlookup := h.anonymous.lookup h.alive_eq he
    rw [← h.capacity_eq] at hlookup
    exact ⟨h.capacity_eq, h.alive_eq, h.signatures, h.capacity_eq ▸ hlookup⟩
  | purge =>
    exact ⟨h.capacity_eq, h.alive_eq, h.signatures.retain fun e => isAlive_iff h.signatures,
      h.anonymous.retain fun e => isAlive_iff h.anonymous⟩
  | clear => exact ⟨h.capacity_eq, h.alive_eq, h.signatures.clear, h.anonymous.clear⟩

theorem Sound.run (h : s.Sound capacity) {events : List (Event α)} (he : s.Admitted events) :
    (s.run events).Sound capacity := by
  induction events generalizing s with
  | nil => exact h
  | cons e events ih => exact ih (h.step he.1) he.2

/-- The onlooker counts every lookup. -/
theorem lookups_run (s : Session α) (events : List (Event α)) :
    (s.run events).signatures.lookups + (s.run events).anonymous.lookups =
      s.signatures.lookups + s.anonymous.lookups + events.countP Event.isLookup := by
  induction events generalizing s with
  | nil => rfl
  | cons e events ih =>
    refine (ih (s.step e)).trans ?_
    rw [List.countP_cons]
    cases e <;> simp only [step, Event.isLookup, Bool.false_eq_true, ↓reduceIte] <;> omega

/-- Dropping the entries at addresses that are not alive drops those of objects that are not. -/
theorem entries_retain {f : α → β} {m : Recent f} {t : Recent.Tally}
    (h : m.Balanced capacity s.alive t) :
    (m.retain s.isAlive).entries = m.entries.filter fun e => decide (e.object ∈ s.alive) := by
  refine List.filter_congr fun e he => ?_
  rw [Bool.eq_iff_iff, isAlive_iff h he, decide_eq_true_iff]

theorem size_retain_add_dropped {f : α → β} {m : Recent f} {t : Recent.Tally}
    (h : m.Balanced capacity s.alive t) :
    (m.retain s.isAlive).size + m.dropped s.alive = m.size := by
  have hkept := (h.retain fun e => isAlive_iff h).size_add_gone
  have hall := h.size_add_gone
  simp only [Recent.retain] at hkept ⊢
  omega

end Session

/-- A cache of any capacity, of which zero counts as one, through any run in which objects are made,
looked up while they are alive, and dropped, and no address is given to a new object while an entry
is kept under it. A lookup answers the entities of the object itself, and does what a lookup by the
address alone does. Each collector holds at most as many entries as the capacity says and no two at
one address; hits and misses together are the lookups so far; the entries are as many as the misses
without the evicted entries and those removed by purging and clearing. Purging removes the entries
of the dropped objects and no others, and answers their number. -/
theorem run_balanced [HasEntities α] [DecidableEq α] (capacity : Nat) (events : List (Event α))
    (h : (Session.start capacity : Session α).Admitted events) :
    let s := (Session.start capacity : Session α).run events
    let room := max capacity 1
    (∀ o ∈ s.alive,
      ((s.cache.signatureOf o).1 = signature o.value ∧
        s.cache.signatures.lookupAt room s.alive o =
          ((s.cache.signatureOf o).1, (s.cache.signatureOf o).2.signatures)) ∧
      (s.cache.anonymousOf o).1 = anonymousIndividuals o.value ∧
        s.cache.anonymous.lookupAt room s.alive o =
          ((s.cache.anonymousOf o).1, (s.cache.anonymousOf o).2.anonymous)) ∧
      s.cache.signatures.Balanced room s.alive s.signatures ∧
      s.cache.anonymous.Balanced room s.alive s.anonymous ∧
      s.cache.stats.hits + s.cache.stats.misses = events.countP Event.isLookup ∧
      let purged := s.cache.purge s.isAlive
      purged.1 = s.cache.signatures.dropped s.alive + s.cache.anonymous.dropped s.alive ∧
        purged.2.signatures.entries =
          (s.cache.signatures.entries.filter fun e => decide (e.object ∈ s.alive)) ∧
        purged.2.anonymous.entries =
          s.cache.anonymous.entries.filter fun e => decide (e.object ∈ s.alive) := by
  intro s room
  have hs : s.Sound room := (Session.sound_start capacity).run h
  have hroom : 0 < room := Nat.lt_of_lt_of_le Nat.one_pos (Nat.le_max_right _ _)
  refine ⟨fun o ho => ⟨⟨Recent.lookup_result _ _ o, ?_⟩, Recent.lookup_result _ _ o, ?_⟩,
    hs.signatures, hs.anonymous, ?_, ?_, Session.entries_retain hs.signatures,
    Session.entries_retain hs.anonymous⟩
  · rw [hs.signatures.lookupAt_eq hroom ho, ← hs.capacity_eq]
    rfl
  · rw [hs.anonymous.lookupAt_eq hroom ho, ← hs.capacity_eq]
    rfl
  · have hlookups := Session.lookups_run (Session.start capacity : Session α) events
    have hsignatures := hs.signatures.hits_add_misses
    have hanonymous := hs.anonymous.hits_add_misses
    simp only [stats, s, Session.start] at hlookups hsignatures hanonymous ⊢
    omega
  · have hsignatures := Session.size_retain_add_dropped hs.signatures
    have hanonymous := Session.size_retain_add_dropped hs.anonymous
    simp only [purge, size]
    omega

/-- With room for one entry, an object is found again and then evicted; the entry of the next is
purged when the object is dropped, and its address goes to a third. -/
theorem run_balanced_reused :
    let x : Shared Axiom := ⟨0, .symmetricObjectProperty (.named ⟨⟨"p"⟩⟩)⟩
    let y : Shared Axiom := ⟨1, .transitiveObjectProperty (.named ⟨⟨"q"⟩⟩)⟩
    let z : Shared Axiom := ⟨1, x.value⟩
    let events : List (Event Axiom) := [.create x, .create y, .signatureOf x, .signatureOf x,
      .signatureOf y, .drop y, .purge, .create z, .anonymousOf z, .clear, .signatureOf z]
    let s := (Session.start 0 : Session Axiom).run events
    (Session.start 0 : Session Axiom).Admitted events ∧ s.alive = [z, x] ∧
      s.cache.stats.hits + s.cache.stats.misses = 5 ∧
      (s.cache.signatureOf x).1 = signature x.value ∧
      s.cache.signatures.size + s.cache.signatures.evictions + 1 = s.cache.signatures.misses := by
  intro x y z events s
  have hadmitted : (Session.start 0 : Session Axiom).Admitted events := by decide
  have halive : s.alive = [z, x] := by decide
  obtain ⟨hlive, hsignatures, -, hlookups, -⟩ := run_balanced 0 events hadmitted
  have hremoved : s.signatures.removed = 1 := by decide
  have hgone := hsignatures.size_add_gone
  rw [hremoved] at hgone
  have hx : x ∈ s.alive := by
    rw [halive]
    exact List.mem_cons_of_mem _ List.mem_cons_self
  exact ⟨hadmitted, halive, hlookups.trans (by decide), (hlive x hx).1.1, hgone⟩

end SignatureCache

end OwlStructure
