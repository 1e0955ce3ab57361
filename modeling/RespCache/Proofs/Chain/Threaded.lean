import RespCache.Proofs.Chain.Links
import RespCache.Proofs.Chain.Releases

/-!
What the check of a chain accepts, for any value of the type: slots, links, ends, free list and length
may say anything. The check looks at one node at a time and then compares three numbers. That no
slot comes twice and that no occupied slot is left out is never looked at, and follows: links that
come to an end meet no handle twice (`Follows.nodup`), and as many slots as are occupied are all of
them (`Arena.mem_of_occupied`). So the values that pass are those that are threaded
(`validate_of_threaded`, `exists_threaded_of_validate`). The walk is over soon whatever it meets, for
the nodes that it has met lead back to the head by their own links (`Progress.exists_ends`).
-/

namespace RespCache

universe u

variable {α : Type u}

namespace Chain

/-! ### Paths -/

namespace Follows

variable {link : Handle → Option Handle} {start : Option Handle} {path path' : List Handle}

theorem unique (hpath : Follows link start path) (hpath' : Follows link start path') :
    path = path' := by
  induction hpath generalizing path' with
  | done =>
      cases hpath'
      rfl
  | step _ ih =>
      cases hpath' with
      | step hrest => rw [ih hrest]

/-- Every place on the way is the beginning of the way from there on. -/
theorem of_mem (hpath : Follows link start path) {h : Handle} (hmem : h ∈ path) :
    ∃ rest, Follows link (some h) rest ∧ rest.length ≤ path.length := by
  induction hpath with
  | done => cases hmem
  | @step g path hrest ih =>
      rcases List.mem_cons.mp hmem with rfl | hmem
      · exact ⟨_, .step hrest, Nat.le_refl _⟩
      · obtain ⟨rest, hfollows, hle⟩ := ih hmem
        exact ⟨rest, hfollows, Nat.le_succ_of_le hle⟩

/-- Links that come to an end meet no handle twice. -/
theorem nodup (hpath : Follows link start path) : path.Nodup := by
  induction hpath with
  | done => exact List.nodup_nil
  | @step h path hrest ih =>
      refine List.nodup_cons.mpr ⟨fun hmem => ?_, ih⟩
      -- met once more, the handle would lead the same way on, which has become shorter by then
      obtain ⟨rest, hfollows, hle⟩ := hrest.of_mem hmem
      have hsame := congrArg List.length (hfollows.unique (.step hrest))
      rw [List.length_cons] at hsame
      omega

theorem head?_eq (hpath : Follows link start path) : path.head? = start := by
  cases hpath <;> rfl

end Follows

theorem next?_of_get? {c : Chain α} {h : Handle} {n : Node α} (hn : c.arena.get? h = some n) :
    c.next? h = n.next := by
  rw [next?, hn]
  rfl

theorem prev?_of_get? {c : Chain α} {h : Handle} {n : Node α} (hn : c.arena.get? h = some n) :
    c.prev? h = n.prev := by
  rw [prev?, hn]
  rfl

theorem occupied_of_contains {c : Chain α} {h : Handle} (hh : c.contains h = true) :
    c.arena.Occupied h.index :=
  (c.arena.exists_get?_iff.mp (Option.isSome_iff_exists.mp hh)).1

/-! ### The walk of the check -/

/-- The nodes of `path` follow each other from `current` on, and each of them has the one before it
as its predecessor, the first one `prev`. -/
inductive Threads (c : Chain α) : Option Handle → Option Handle → List Handle → Prop where
  | done {prev : Option Handle} : Threads c prev none []
  | step {h : Handle} {n : Node α} {path : List Handle} : c.arena.get? h = some n →
      Threads c (some h) n.next path → Threads c n.prev (some h) (h :: path)

/-- The walk meets the nodes of a path and ends at the last of them. -/
theorem walk_of_threads {c : Chain α} {prev current : Option Handle} {path : List Handle}
    (hpath : c.Threads prev current path) (left : Nat) :
    c.walk (path.length + left) prev current = .ok (path.getLast?.or prev, left) := by
  induction hpath with
  | done => simp [walk]
  | @step h n path hn _ ih =>
      rw [List.length_cons, Nat.succ_add, walk, hn]
      simp only [if_true, ih]
      rw [List.getLast?_cons]
      cases path.getLast? <;> rfl

/-- A walk that ends well has met the nodes of a path. -/
theorem exists_threads_of_walk {c : Chain α} {budget left : Nat} {prev current last : Option Handle}
    (hwalk : c.walk budget prev current = .ok (last, left)) :
    ∃ path, c.Threads prev current path ∧ path.length + left = budget ∧
      last = path.getLast?.or prev := by
  fun_induction walk c budget prev current with
  | case1 budget prev =>
      cases hwalk
      exact ⟨[], .done, Nat.zero_add _, rfl⟩
  | case2 => cases hwalk
  | case3 => cases hwalk
  | case4 h n hn budget ih =>
      obtain ⟨path, hpath, hlength, hlast⟩ := ih hwalk
      refine ⟨h :: path, Threads.step hn hpath, ?_, ?_⟩
      · rw [List.length_cons]
        omega
      · rw [hlast, List.getLast?_cons]
        cases path.getLast? <;> rfl
  | case5 => cases hwalk

/-! ### Paths as they are seen from outside -/

namespace Threads

variable {c : Chain α} {prev current : Option Handle} {path : List Handle}

theorem follows (hpath : c.Threads prev current path) : Follows c.next? current path := by
  induction hpath with
  | done => exact .done
  | step hn _ ih => exact .step (next?_of_get? hn ▸ ih)

theorem contains (hpath : c.Threads prev current path) : ∀ h ∈ path, c.contains h = true := by
  induction hpath with
  | done => exact List.forall_mem_nil _
  | step hn _ ih =>
      refine List.forall_mem_cons.mpr ⟨?_, ih⟩
      rw [Chain.contains, hn]
      rfl

theorem prev_first (hpath : c.Threads prev current path) {h : Handle}
    (hfirst : path.head? = some h) : c.prev? h = prev := by
  cases hpath with
  | done => cases hfirst
  | step hn _ =>
      cases hfirst
      exact prev?_of_get? hn

theorem prev_eq (hpath : c.Threads prev current path) {g h : Handle}
    (hbeside : [g, h] <:+: path) : c.prev? h = some g := by
  induction hpath with
  | done => simp at hbeside
  | @step g' n path _ hrest ih =>
      rcases List.infix_cons_iff.mp hbeside with hfront | hinside
      · obtain ⟨rfl, hhead⟩ := List.cons_prefix_cons.mp hfront
        apply hrest.prev_first
        obtain ⟨rest, rfl⟩ := hhead
        rfl
      · exact ih hinside

end Threads

theorem threads_of_follows {c : Chain α} {prev current : Option Handle} {path : List Handle}
    (hfollows : Follows c.next? current path) (hnodes : ∀ h ∈ path, c.contains h = true)
    (hfirst : ∀ h, path.head? = some h → c.prev? h = prev)
    (hprev : ∀ g h, [g, h] <:+: path → c.prev? h = some g) : c.Threads prev current path := by
  induction hfollows generalizing prev with
  | done => exact .done
  | @step h path hrest ih =>
      obtain ⟨n, hn⟩ := Option.isSome_iff_exists.mp (hnodes h List.mem_cons_self)
      have hback : n.prev = prev := by
        rw [← prev?_of_get? hn]
        exact hfirst h rfl
      subst hback
      rw [next?_of_get? hn] at ih
      refine .step hn (ih ?_ ?_ ?_)
      · exact fun g hg => hnodes g (List.mem_cons_of_mem _ hg)
      · intro g hg
        apply hprev h g
        obtain ⟨rest, rfl⟩ : ∃ rest, path = g :: rest := List.head?_eq_some_iff.mp hg
        exact ⟨[], rest, rfl⟩
      · exact fun g g' hbeside => hprev g g' (List.infix_cons hbeside)

/-! ### The values that pass -/

/-- The handles from the head on are `path`: different nodes, linked both ways and as many as the
length says, the last of them the tail. They take up every occupied slot, and the free list is as long
as slots are left over. -/
structure Threaded (c : Chain α) (path : List Handle) : Prop where
  forward : Follows c.next? c.head path
  length : path.length = c.length
  resolves : ∀ h ∈ path, c.contains h = true
  nodup : (path.map Handle.index).Nodup
  covers : ∀ i, c.arena.Occupied i → i ∈ path.map Handle.index
  prev_first : ∀ h, path.head? = some h → c.prev? h = none
  prev : ∀ g h, [g, h] <:+: path → c.prev? h = some g
  tail : c.tail = path.getLast?
  free : c.arena.free.length = c.arena.vacant

theorem validate_eq_ok_iff_counts {c : Chain α} :
    c.validate = .ok () ↔ c.checkEnds = .ok () ∧ c.walk c.length none c.head = .ok (c.tail, 0) ∧
      c.arena.occupied = c.length ∧
      c.arena.occupied + c.arena.free.length = c.arena.slots.size := by
  unfold validate
  cases hends : c.checkEnds with
  | error e => simp [bind, Except.bind]
  | ok =>
      cases hwalk : c.walk c.length none c.head with
      | error e => simp [bind, Except.bind]
      | ok result =>
          obtain ⟨last, left⟩ := result
          simp only [bind, Except.bind, pure, Except.pure, throw, throwThe, MonadExceptOf.throw]
          split_ifs with h1 h2 h3 h4 <;> simp_all

theorem exists_threaded_of_validate {c : Chain α} (hvalid : c.validate = .ok ()) :
    ∃ path, c.Threaded path := by
  obtain ⟨-, hwalk, hoccupied, hslots⟩ := validate_eq_ok_iff_counts.mp hvalid
  obtain ⟨path, hpath, hlength, htail⟩ := exists_threads_of_walk hwalk
  have hindices : (path.map Handle.index).Nodup :=
    nodup_map_index hpath.follows.nodup fun h hh => Option.isSome_iff_exists.mp (hpath.contains h hh)
  refine ⟨path, ?_⟩
  constructor
  case forward => exact hpath.follows
  case length => exact hlength
  case resolves => exact hpath.contains
  case nodup => exact hindices
  case covers =>
    intro i hi
    refine Arena.mem_of_occupied hindices ?_ ?_ hi
    · intro j hj
      obtain ⟨h, hh, rfl⟩ := List.mem_map.mp hj
      exact occupied_of_contains (hpath.contains h hh)
    · rw [List.length_map, hoccupied]
      exact hlength
  case prev_first => exact fun h hfirst => hpath.prev_first hfirst
  case prev => exact fun g h hbeside => hpath.prev_eq hbeside
  case tail => rw [htail, Option.or_none]
  case free =>
    have hvacant := c.arena.occupied_add_vacant
    omega

theorem checkEnds_of_threaded {c : Chain α} {path : List Handle} (hpath : c.Threaded path) :
    c.checkEnds = .ok () := by
  have hhead := hpath.forward.head?_eq
  have htail := hpath.tail
  have hlength := hpath.length
  unfold checkEnds
  rw [← hhead, htail, ← hlength]
  cases path with
  | nil => rfl
  | cons h path => simp

theorem validate_of_threaded {c : Chain α} {path : List Handle} (hpath : c.Threaded path) :
    c.validate = .ok () := by
  have hthreads := threads_of_follows hpath.forward hpath.resolves hpath.prev_first hpath.prev
  have hoccupied : c.arena.occupied = c.length := by
    rw [← hpath.length, ← List.length_map Handle.index]
    symm
    apply Arena.length_eq_occupied hpath.nodup
    refine fun i => ⟨fun hi => ?_, hpath.covers i⟩
    obtain ⟨h, hh, rfl⟩ := List.mem_map.mp hi
    exact occupied_of_contains (hpath.resolves h hh)
  refine validate_eq_ok_iff_counts.mpr ⟨checkEnds_of_threaded hpath, ?_, hoccupied, ?_⟩
  · have hwalk := walk_of_threads hthreads 0
    rwa [Nat.add_zero, hpath.length, Option.or_none, ← hpath.tail] at hwalk
  · rw [hpath.free]
    exact c.arena.occupied_add_vacant

/-! ### The nodes of a threaded chain -/

theorem get?_of_mem_nodesFrom {c : Chain α} {limit : Nat} {start : Option Handle} {h : Handle}
    {x : α} (hmem : (h, x) ∈ c.nodesFrom limit start) : c.get? h = some x := by
  fun_induction nodesFrom c limit start with
  | case1 => cases hmem
  | case2 => cases hmem
  | case3 limit g n hn ih =>
      rcases List.mem_cons.mp hmem with hfirst | hrest
      · cases hfirst
        rw [get?, hn]
        rfl
      · exact ih hrest
  | case4 => cases hmem

theorem map_fst_nodesFrom {c : Chain α} {start : Option Handle} {path : List Handle}
    (hfollows : Follows c.next? start path) (hnodes : ∀ h ∈ path, c.contains h = true) {limit : Nat}
    (hlimit : path.length ≤ limit) : (c.nodesFrom limit start).map Prod.fst = path := by
  induction hfollows generalizing limit with
  | done => cases limit <;> rfl
  | @step h path hrest ih =>
      obtain ⟨hnode, hnodes⟩ := List.forall_mem_cons.mp hnodes
      obtain ⟨n, hn⟩ := Option.isSome_iff_exists.mp hnode
      cases limit with
      | zero => cases hlimit
      | succ limit =>
          rw [nodesFrom, hn, List.map_cons, ← next?_of_get? hn]
          exact congrArg (h :: ·) (ih hnodes (Nat.le_of_succ_le_succ hlimit))

namespace Threaded

variable {c : Chain α} {path : List Handle}

/-- Every slot is met at most once, so the list of nodes is not cut short. -/
theorem map_fst_nodes (hpath : c.Threaded path) : c.nodes.map Prod.fst = path := by
  apply map_fst_nodesFrom hpath.forward hpath.resolves
  apply length_le_size_of_nodup hpath.forward.nodup
  intro h hh
  exact Option.isSome_iff_exists.mp (hpath.resolves h hh)

theorem length_nodes (hpath : c.Threaded path) : c.nodes.length = c.length := by
  rw [← hpath.length, ← hpath.map_fst_nodes, List.length_map]

/-- No node is left out. -/
theorem mem_of_contains (hpath : c.Threaded path) {h : Handle} (hh : c.contains h = true) :
    h ∈ path := by
  obtain ⟨g, hg, hindex⟩ := List.mem_map.mp (hpath.covers h.index (occupied_of_contains hh))
  obtain ⟨m, hm⟩ := Option.isSome_iff_exists.mp (hpath.resolves g hg)
  obtain ⟨n, hn⟩ := Option.isSome_iff_exists.mp hh
  have hsame : g = h := c.arena.get?_slot_injective hm hn hindex
  rwa [← hsame]

theorem mem_nodes_iff (hpath : c.Threaded path) {h : Handle} {x : α} :
    (h, x) ∈ c.nodes ↔ c.get? h = some x := by
  constructor
  · exact get?_of_mem_nodesFrom
  · intro hx
    have hmem := hpath.mem_of_contains (Holds.contains_of_get? hx)
    rw [← hpath.map_fst_nodes] at hmem
    obtain ⟨⟨g, y⟩, hnode, rfl⟩ := List.mem_map.mp hmem
    cases (get?_of_mem_nodesFrom hnode).symm.trans hx
    exact hnode

end Threaded

/-! ### The walk turn by turn -/

/-- How far a walk has got: the node it met last, the one it goes to, and how many it has met. -/
structure Progress where
  last : Option Handle
  current : Option Handle
  met : Nat

namespace Progress

/-- What the walk finds: the last node and the number of nodes, or what is wrong. -/
abbrev Finding := Except Violation (Option Handle × Nat)

/-- One turn of the walk: it goes on, or it is over. -/
def turn (c : Chain α) (p : Progress) : Progress ⊕ Finding :=
  match p.current with
  | none => .inr (.ok (p.last, p.met))
  | some h =>
    match c.arena.get? h with
    | none => .inr (.error .danglingLink)
    | some n =>
      if n.prev = p.last then
        if p.met + 1 ≤ c.length then .inl ⟨some h, n.next, p.met + 1⟩ else .inr (.error .tooLong)
      else .inr (.error .brokenBackLink)

/-- The walk is over after so many turns, and has found this. -/
inductive Ends (c : Chain α) : Progress → Nat → Finding → Prop where
  | over {p : Progress} {finding : Finding} : p.turn c = .inr finding → Ends c p 1 finding
  | goesOn {p p' : Progress} {turns : Nat} {finding : Finding} :
      p.turn c = .inl p' → Ends c p' turns finding → Ends c p (turns + 1) finding

/-- The nodes met so far, the last one in front, lead back by their own links to one that nothing
comes before. -/
def Back (c : Chain α) (p : Progress) (passed : List Handle) : Prop :=
  Follows c.prev? p.last passed ∧ passed.length = p.met ∧ ∀ h ∈ passed, ∃ n, c.arena.get? h = some n

theorem Back.met_le {c : Chain α} {p : Progress} {passed : List Handle} (hback : p.Back c passed) :
    p.met ≤ c.arena.slots.size := by
  obtain ⟨hfollows, hlength, hnodes⟩ := hback
  rw [← hlength]
  exact length_le_size_of_nodup hfollows.nodup hnodes

theorem Back.turn {c : Chain α} {p : Progress} {passed : List Handle} (hback : p.Back c passed)
    {h : Handle} {n : Node α} (hn : c.arena.get? h = some n) (hprev : n.prev = p.last) :
    Back c ⟨some h, n.next, p.met + 1⟩ (h :: passed) := by
  obtain ⟨hfollows, hlength, hnodes⟩ := hback
  have hlink : c.prev? h = p.last := (prev?_of_get? hn).trans hprev
  refine ⟨.step (hlink ▸ hfollows), ?_, List.forall_mem_cons.mpr ⟨⟨n, hn⟩, hnodes⟩⟩
  rw [List.length_cons, hlength]

/-- A walk that starts on a budget is over when, with those it has met, it has made one turn more than
there are slots, and finds what the recursion on the budget finds. -/
theorem exists_ends {c : Chain α} {last current : Option Handle} {met budget : Nat}
    {passed : List Handle} (hback : Back c ⟨last, current, met⟩ passed)
    (hbudget : met + budget = c.length) :
    ∃ turns, met + turns ≤ c.arena.slots.size + 1 ∧
      Ends c ⟨last, current, met⟩ turns
        ((c.walk budget last current).map fun r => (r.1, c.length - r.2)) := by
  have hmet : met + 1 ≤ c.arena.slots.size + 1 := Nat.succ_le_succ hback.met_le
  fun_induction walk c budget last current generalizing met passed with
  | case1 budget last =>
      refine ⟨1, hmet, .over ?_⟩
      have hleft : c.length - budget = met := by omega
      simp [turn, Except.map, hleft]
  | case2 budget last h hn => exact ⟨1, hmet, .over (by simp [turn, hn, Except.map])⟩
  | case3 h n hn =>
      refine ⟨1, hmet, .over ?_⟩
      have hfull : ¬met + 1 ≤ c.length := by omega
      simp [turn, hn, hfull, Except.map]
  | case4 h n hn budget ih =>
      have hstep : Back c ⟨some h, n.next, met + 1⟩ (h :: passed) := hback.turn hn rfl
      obtain ⟨turns, hturns, hends⟩ := ih hstep (by omega) (Nat.succ_le_succ hstep.met_le)
      refine ⟨turns + 1, by omega, .goesOn ?_ hends⟩
      have hroom : met + 1 ≤ c.length := by omega
      simp [turn, hn, hroom]
  | case5 budget last h n hn hprev =>
      exact ⟨1, hmet, .over (by simp [turn, hn, hprev, Except.map])⟩

end Progress

/-- Whatever the fields of a chain say: the walk of its check is over after at most one turn for each
slot and one more, and the check finds nothing wrong exactly if the chain is threaded. -/
theorem validate_eq_ok_iff_threaded (c : Chain α) :
    (∃ turns, turns ≤ c.arena.slots.size + 1 ∧
      Progress.Ends c ⟨none, c.head, 0⟩ turns
        ((c.walk c.length none c.head).map fun r => (r.1, c.length - r.2))) ∧
      (c.validate = .ok () ↔ ∃ path, c.Threaded path) := by
  constructor
  · have hback : Progress.Back c ⟨none, c.head, 0⟩ [] := ⟨.done, rfl, List.forall_mem_nil _⟩
    obtain ⟨turns, hturns, hends⟩ := Progress.exists_ends hback (Nat.zero_add c.length)
    exact ⟨turns, by omega, hends⟩
  · constructor
    · exact exists_threaded_of_validate
    · rintro ⟨path, hpath⟩
      exact validate_of_threaded hpath

/-- Two nodes whose links lead round in a circle: the first one is met again behind the second one,
and does not have it as its predecessor. -/
example :
    let first : Handle := ⟨0, 0⟩
    let second : Handle := ⟨1, 0⟩
    let slots := #[⟨0, some ⟨'a', none, some second⟩⟩, ⟨0, some ⟨'b', some first, some first⟩⟩]
    let c : Chain Char := ⟨⟨slots, []⟩, some first, some second, 5⟩
    c.validate = .error .brokenBackLink := rfl

end Chain

end RespCache
