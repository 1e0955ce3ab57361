import RespCache.Proofs.Cache.Consistency
import RespCache.Proofs.Chain.Threaded

/-!
What the check of a cache accepts, for any index, chain and capacity. The check asks the index only:
each of its handles has to lead to a node with the key, and there have to be as many as the chain has
nodes (`Checked`). That no node is missing from the index and that no key stands at two nodes is never
looked at. Both follow: no two keys can share a node, so the index has as many handles as keys
(`Checked.nodup_indexedHandles`), and as many handles as there are nodes are all of them
(`Checked.perm_indexedHandles`). So the caches that pass are those whose chain is threaded and paired
with the index, node by node (`validate_eq_ok_iff_paired`).
-/

namespace RespCache.Cache

universe u v

variable {κ : Type u} {ν : Type v} [BEq κ] [Hashable κ]

def indexedHandles (c : Cache κ ν) : List Handle := c.index.toList.map Prod.snd

/-- The handle of a key leads to a node with this key. -/
def Leads (c : Cache κ ν) (key : κ) (h : Handle) : Prop :=
  ∃ entry, c.order.get? h = some entry ∧ (entry.key == key) = true

theorem checkIndexed_eq_ok_iff {c : Cache κ ν} {key : κ} {h : Handle} :
    c.checkIndexed key h = .ok () ↔ c.Leads key h := by
  unfold checkIndexed Leads
  cases c.order.get? h with
  | none => simp
  | some entry => by_cases hkey : entry.key == key <;> simp [hkey]

/-- What the check looks at, for a chain whose handles are `path`: each handle of the index leads to
its key, and the numbers agree and fit. -/
structure Checked (c : Cache κ ν) (path : List Handle) : Prop where
  threaded : c.order.Threaded path
  size : c.order.length = c.index.size
  size_le : c.index.size ≤ c.capacity
  leads : ∀ p ∈ c.index.toList, c.Leads p.1 p.2

theorem validate_eq_ok_iff_checked {c : Cache κ ν} :
    c.validate = .ok () ↔ ∃ path, c.Checked path := by
  have hforM : c.index.toList.forM (fun p => c.checkIndexed p.1 p.2) = .ok () ↔
      ∀ p ∈ c.index.toList, c.Leads p.1 p.2 := by
    simp only [forM_eq_ok_iff, checkIndexed_eq_ok_iff]
  have hparts : c.validate = .ok () ↔ c.order.validate = .ok () ∧ c.order.length = c.index.size ∧
      c.index.size ≤ c.capacity ∧ ∀ p ∈ c.index.toList, c.Leads p.1 p.2 := by
    rw [← hforM]
    unfold validate
    cases c.order.validate with
    | error v => simp [bind, Except.bind, throw, throwThe, MonadExceptOf.throw]
    | ok =>
        simp only [bind, Except.bind, throw, throwThe, MonadExceptOf.throw]
        split_ifs with hsize hcapacity
        · exact iff_of_false (by simp) fun h => hsize h.2.1
        · exact iff_of_false (by simp) fun h => Nat.not_le_of_lt hcapacity h.2.2.1
        · simp [not_not.mp hsize, Nat.le_of_not_lt hcapacity]
  rw [hparts]
  constructor
  · rintro ⟨hchain, hsize, hcapacity, hleads⟩
    obtain ⟨path, hpath⟩ := Chain.exists_threaded_of_validate hchain
    exact ⟨path, hpath, hsize, hcapacity, hleads⟩
  · rintro ⟨path, hpath, hsize, hcapacity, hleads⟩
    exact ⟨Chain.validate_of_threaded hpath, hsize, hcapacity, hleads⟩

section Bijection

variable {c : Cache κ ν} {path : List Handle}

theorem Leads.contains {key : κ} {h : Handle} (hleads : c.Leads key h) :
    c.order.contains h = true := by
  obtain ⟨entry, hentry, -⟩ := hleads
  exact Chain.Holds.contains_of_get? hentry

variable [EquivBEq κ]

/-- A node has one key, so no two keys of the index lead to it. -/
theorem Leads.unique {key key' : κ} {h : Handle} (hleads : c.Leads key h)
    (hleads' : c.Leads key' h) : (key == key') = true := by
  obtain ⟨entry, hentry, hkey⟩ := hleads
  obtain ⟨entry', hentry', hkey'⟩ := hleads'
  cases hentry.symm.trans hentry'
  exact BEq.trans (BEq.symm hkey) hkey'

variable [LawfulHashable κ]

namespace Checked

theorem nodup_indexedHandles (hc : c.Checked path) : c.indexedHandles.Nodup := by
  apply List.pairwise_map.mpr
  apply List.Pairwise.imp_of_mem _ Std.HashMap.distinct_keys_toList
  intro p q hp hq hdistinct hsame
  have hkeys : (p.1 == q.1) = true := by
    apply (hc.leads p hp).unique
    rw [hsame]
    exact hc.leads q hq
  rw [hdistinct] at hkeys
  cases hkeys

/-- The index gives every node its handle, once. -/
theorem perm_indexedHandles (hc : c.Checked path) : c.indexedHandles.Perm path := by
  have hsubset : c.indexedHandles ⊆ path := by
    intro h hh
    obtain ⟨p, hp, rfl⟩ := List.mem_map.mp hh
    exact hc.threaded.mem_of_contains (hc.leads p hp).contains
  have hlength : path.length = c.indexedHandles.length := by
    calc path.length = c.order.length := hc.threaded.length
      _ = c.index.size := hc.size
      _ = c.index.toList.length := Std.HashMap.length_toList.symm
      _ = c.indexedHandles.length := (List.length_map Prod.snd).symm
  have hsubperm := hc.nodup_indexedHandles.subperm hsubset
  exact hsubperm.perm_of_length_le (Nat.le_of_eq hlength)

theorem indexed (hc : c.Checked path) {h : Handle} {entry : Entry κ ν}
    (hnode : (h, entry) ∈ c.order.nodes) : c.index[entry.key]? = some h := by
  have hmem : h ∈ c.indexedHandles := by
    rw [hc.perm_indexedHandles.mem_iff, ← hc.threaded.map_fst_nodes]
    exact List.mem_map_of_mem hnode
  obtain ⟨⟨key, g⟩, hp, rfl⟩ := List.mem_map.mp hmem
  obtain ⟨entry', hentry', hkey⟩ := hc.leads _ hp
  cases hentry'.symm.trans (hc.threaded.mem_nodes_iff.mp hnode)
  exact Std.HashMap.getElem?_eq_some_iff_exists_beq_and_mem_toList.mpr ⟨key, hkey, hp⟩

/-- Nodes with one key would have one place in the index. -/
theorem distinct (hc : c.Checked path) :
    c.order.nodes.Pairwise fun m n => (m.2.key == n.2.key) = false := by
  have hnodup : (c.order.nodes.map Prod.fst).Nodup := by
    rw [hc.threaded.map_fst_nodes]
    exact hc.threaded.forward.nodup
  apply List.Pairwise.imp_of_mem _ (List.pairwise_map.mp hnodup)
  intro m n hm hn hne
  by_contra hkeys
  have hplace := Std.HashMap.getElem?_congr (m := c.index) (Bool.of_not_eq_false hkeys)
  rw [hc.indexed hm, hc.indexed hn] at hplace
  exact hne (Option.some.inj hplace)

theorem paired (hc : c.Checked path) : c.Paired where
  distinct := hc.distinct
  indexed _ _ hnode := hc.indexed hnode
  linked key h hindex := by
    obtain ⟨key', hsame, hp⟩ :=
      Std.HashMap.getElem?_eq_some_iff_exists_beq_and_mem_toList.mp hindex
    obtain ⟨entry, hentry, hkey⟩ := hc.leads _ hp
    exact ⟨entry, hc.threaded.mem_nodes_iff.mpr hentry, BEq.trans hkey (BEq.symm hsame)⟩
  size := hc.size.symm.trans hc.threaded.length_nodes.symm
  length_le := by
    rw [hc.threaded.length_nodes, hc.size]
    exact hc.size_le

end Checked

theorem Paired.checked (hpath : c.order.Threaded path) (hc : c.Paired) : c.Checked path where
  threaded := hpath
  size := hpath.length_nodes.symm.trans hc.size.symm
  size_le := hc.size ▸ hc.length_le
  leads p hp := by
    have hindex : c.index[p.1]? = some p.2 :=
      (Std.HashMap.mem_toList_iff_getKey?_eq_some_and_getElem?_eq_some.mp hp).2
    obtain ⟨entry, hnode, hkey⟩ := hc.linked _ _ hindex
    exact ⟨entry, hpath.mem_nodes_iff.mp hnode, hkey⟩

end Bijection

/-- Whatever index, chain and capacity say: the check of a cache finds nothing wrong exactly if the
nodes from the head on thread the chain and are in bijection with the keys of the index. -/
theorem validate_eq_ok_iff_paired [EquivBEq κ] [LawfulHashable κ] (c : Cache κ ν) :
    c.validate = .ok () ↔ c.order.Threaded (c.order.nodes.map Prod.fst) ∧ c.Paired := by
  rw [validate_eq_ok_iff_checked]
  constructor
  · rintro ⟨path, hc⟩
    rw [hc.threaded.map_fst_nodes]
    exact ⟨hc.threaded, hc.paired⟩
  · rintro ⟨hpath, hpaired⟩
    exact ⟨_, hpaired.checked hpath⟩

/-- Two nodes that were pushed in the order of their keys, slots in generations of their own, and a
free list that names a slot behind the last one. -/
theorem validate_eq_ok_iff_paired_two :
    let order : Chain (Entry Nat Char) :=
      { arena :=
          { slots := #[⟨7, some ⟨⟨1, 'a'⟩, some ⟨2, 5⟩, none⟩⟩, ⟨0, none⟩,
              ⟨5, some ⟨⟨2, 'b'⟩, none, some ⟨0, 7⟩⟩⟩]
            free := [9] }
        head := some ⟨2, 5⟩
        tail := some ⟨0, 7⟩
        length := 2 }
    let index : Std.HashMap Nat Handle := (∅ : Std.HashMap Nat Handle).insert 1 ⟨0, 7⟩
    let c : Cache Nat Char := ⟨index.insert 2 ⟨2, 5⟩, order, 2⟩
    c.validate = .ok () ∧ c.order.Threaded (c.order.nodes.map Prod.fst) ∧ c.Paired := by
  intro order index c
  have hsize : c.index.size = 2 := by simp [c, index, Std.HashMap.size_insert]
  have hleads : ∀ p ∈ c.index.toList, c.Leads p.1 p.2 := by
    rintro ⟨key, h⟩ hp
    rw [Std.HashMap.mem_toList_iff_getElem?_eq_some, Std.HashMap.getElem?_insert,
      Std.HashMap.getElem?_insert] at hp
    split_ifs at hp with hsecond hfirst
    · cases hp
      exact ⟨⟨2, 'b'⟩, rfl, hsecond⟩
    · cases hp
      exact ⟨⟨1, 'a'⟩, rfl, hfirst⟩
    · simp at hp
  obtain ⟨path, hpath⟩ := Chain.exists_threaded_of_validate (show order.validate = .ok () from rfl)
  have hvalid : c.validate = .ok () :=
    validate_eq_ok_iff_checked.mpr ⟨path, hpath, hsize.symm, Nat.le_of_eq hsize, hleads⟩
  exact ⟨hvalid, (validate_eq_ok_iff_paired c).mp hvalid⟩

end RespCache.Cache
