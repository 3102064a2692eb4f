import Relay.Proofs.Content.Courses

/-!
# What a walk finds

What a walk has found when it is over is what its root leads to, each id once. So it goes through
exactly if all of that is stored and can be read, and counts it, in whatever order the links stand
and however often they are repeated (`Walk.run_closure`).
-/

namespace Relay

/-- All that a node leads to, but what is known to be stored. -/
def ObjectStore.Wants (s : ObjectStore) (root : Node) (known : Option ContentId)
    (id : ContentId) : Prop := Reaches s root id ∧ id ∉ known

namespace Walk

open ObjectStore

variable {w w' v : Walk} {s t : ObjectStore} {root : Node} {known : Option ContentId}
  {id : ContentId} {n : Nat}

/-! ### What has been found -/

/-- What a walk from a root has found is stored and linked from the root, and each id was found
once; what it has read are nodes, and it has forgotten none of their links. -/
structure Explores (s : ObjectStore) (root : Node) (known : Option ContentId) (w : Walk) :
    Prop where
  seeks : w.Seeks s root
  once : w.visited.Nodup
  found : ∃ ids, w.visited = ids ++ known.toList ∧
    ids.length = w.count + w.expanding.toList.length ∧
    ∀ id ∈ ids, Reaches s root id ∧ s.disk.blocks.get? id ≠ none
  roots : ∀ id ∈ root.targets, w.Notes id
  links : ∀ id ∈ w.visited, id.codec = .node → w.expanding ≠ some id →
    ∃ node, s.nodeAt? id = some node ∧ ∀ id' ∈ node.targets, w.Notes id'

theorem counted_visit (w : Walk) (id : ContentId) (idle : w.expanding = none) :
    (w.visit id).count + (w.visit id).expanding.toList.length = w.count + 1 := by
  unfold Walk.visit
  split
  · rfl
  · simp only [idle, Option.toList_none, List.length_nil, Nat.add_zero]

theorem explores_ofNode (raw : ∀ id ∈ known, id.codec = .raw) (root : Node) (s : ObjectStore) :
    Explores s root known (ofNode root known) where
  seeks := seeks_ofNode root known s
  once := by cases known <;> simp [ofNode]
  found := ⟨[], rfl, rfl, fun id mem => by cases mem⟩
  roots := fun id linked => .inr (List.mem_reverse.2 linked)
  links := by
    intro id mem codec
    rw [raw id (Option.mem_toList.1 mem)] at codec
    cases codec

theorem Explores.moves (h : Explores s root known w) (moves : Moves s w w') :
    Explores s root known w' := by
  have seeks := h.seeks.moves moves
  have noted : ∀ id ∈ root.targets, w'.Notes id := fun id linked => moves.notes (h.roots id linked)
  have kept : ∀ id ∈ w.visited, id.codec = .node → w.expanding ≠ some id →
      ∃ node, s.nodeAt? id = some node ∧ ∀ id' ∈ node.targets, w'.Notes id' := by
    intro id mem codec free
    obtain ⟨node, found, links⟩ := h.links id mem codec free
    exact ⟨node, found, fun id' linked => moves.notes (links id' linked)⟩
  obtain ⟨ids, visited, counted, reached⟩ := h.found
  cases moves with
  | skip seen => exact ⟨seeks, h.once, ⟨ids, visited, counted, reached⟩, noted, kept⟩
  | @visit visited' pending count id new stored =>
    refine ⟨seeks, ?_, ⟨id :: ids, ?_, ?_, ?_⟩, noted, ?_⟩
    · rw [visited_visit]
      exact List.nodup_cons.2 ⟨new, h.once⟩
    · rw [visited_visit]
      exact congrArg (id :: ·) visited
    · rw [counted_visit _ id rfl, List.length_cons, counted]
      rfl
    · intro id' mem
      rcases List.mem_cons.1 mem with rfl | mem
      · exact ⟨h.seeks.pending _ List.mem_cons_self, stored⟩
      · exact reached id' mem
    · intro id' mem codec free
      rw [visited_visit] at mem
      rcases List.mem_cons.1 mem with rfl | mem
      · rw [Walk.visit, codec] at free
        exact absurd rfl free
      · exact kept id' mem codec fun reading => by cases reading
  | @expand visited' pending count id node found =>
    refine ⟨seeks, h.once, ⟨ids, visited, counted, reached⟩, noted, ?_⟩
    intro id' mem codec _
    by_cases same : id' = id
    · subst same
      exact ⟨node, found, fun id'' linked =>
        .inr (List.mem_append_left _ (List.mem_reverse.2 linked))⟩
    · exact kept id' mem codec fun reading => same (Option.some.inj reading).symm

theorem Course.explores (h : (ofNode root known).Course s n v t)
    (raw : ∀ id ∈ known, id.codec = .raw) : Explores s root known v :=
  h.induct (P := fun _ v => Explores s root known v) (explores_ofNode raw root s)
    fun _ _ _ explores moves => explores.moves moves

/-! ### Where walks end -/

/-- A walk that is over has visited all that its root leads to, and nothing else. -/
theorem Explores.exact (h : Explores s root known w) (ended : w.isOver) :
    ∃ ids : List ContentId, ids.Nodup ∧ ids.length = w.count ∧
      (∀ id, id ∈ ids ↔ s.Wants root known id) ∧
      ∀ id ∈ ids, id ∈ w.visited ∧ s.disk.blocks.get? id ≠ none ∧
        (id.codec = .node → s.nodeAt? id ≠ none) := by
  have done : w.pending = [] ∧ w.expanding = none := by simpa [isOver] using ended
  obtain ⟨ids, visited, counted, reached⟩ := h.found
  have noted : ∀ id, w.Notes id → id ∈ w.visited := by
    rintro id (found | waits)
    · exact found
    · rw [done.1] at waits
      cases waits
  have links : ∀ id ∈ w.visited, id.codec = .node →
      ∃ node, s.nodeAt? id = some node ∧ ∀ id' ∈ node.targets, id' ∈ w.visited := by
    intro id mem codec
    obtain ⟨node, found, links⟩ := h.links id mem codec (by rw [done.2]; exact fun h => by cases h)
    exact ⟨node, found, fun id' linked => noted id' (links id' linked)⟩
  have all : ∀ id, Reaches s root id → id ∈ w.visited := by
    intro id reaches
    induction reaches with
    | link linked => exact noted _ (h.roots _ linked)
    | through _ found linked ih =>
      obtain ⟨node, found', targets⟩ := links _ ih (nodeAt?_eq_some_iff.1 found).1
      rw [found] at found'
      cases found'
      exact targets _ linked
  have split := h.once
  rw [visited, List.nodup_append] at split
  obtain ⟨nodup, -, apart⟩ := split
  rw [done.2, Option.toList_none, List.length_nil, Nat.add_zero] at counted
  refine ⟨ids, nodup, counted, fun id => ⟨fun mem => ⟨(reached id mem).1, fun given => ?_⟩, ?_⟩,
    fun id mem => ?_⟩
  · exact apart id mem id (Option.mem_toList.2 given) rfl
  · rintro ⟨reaches, new⟩
    have mem := all id reaches
    rw [visited, List.mem_append] at mem
    exact mem.resolve_right fun given => new (Option.mem_toList.1 given)
  · have seen : id ∈ w.visited := visited ▸ List.mem_append_left _ mem
    refine ⟨seen, (reached id mem).2, fun codec => ?_⟩
    obtain ⟨node, found, -⟩ := links id seen codec
    rw [found]
    exact Option.some_ne_none node

/-- No presence check of a walk fails. -/
def Looks (w : Walk) (s : ObjectStore) : Prop :=
  ∀ {n v t id pending}, w.Course s n v t → v.expanding = none → v.pending = id :: pending →
    id ∉ v.visited → ∃ found, (contains id t).1 = .ok found

/-- A walk comes to read an object, and the step fails by itself. -/
def Falters (w : Walk) (s : ObjectStore) (id : ContentId) (e : IoError) : Prop :=
  ∃ n v t, w.Course s n v t ∧ v.expanding = some id ∧ t.fault? = some e

/-- What a walk needs of an object: that it is there and, if it is a node, that it can be read. -/
def Meets (w : Walk) (s : ObjectStore) (id : ContentId) : Prop :=
  s.disk.blocks.get? id ≠ none ∧
    (id.codec = .node → s.nodeAt? id ≠ none ∧ ∀ e, ¬w.Falters s id e)

/-- A walk that has gone through has not met a fault. -/
theorem Course.steady (h : w.Course s n v t) (reading : v.expanding = some id) {k : Nat}
    (ok : (w.run s).1 = .ok k) : t.fault? = none := by
  have more : ¬v.isOver := by
    intro ended
    simp [isOver, reading] at ended
  rw [h.run_eq] at ok
  cases goes : v.step t with
  | mk r u =>
  cases r with
  | error e =>
    rw [run_of_error more goes] at ok
    cases ok
  | ok v' =>
    refine (((step_outcome more).of_eq goes).2.1 v' rfl).2 ?_
    rw [reading]
    exact Option.some_ne_none id

/-- A walk that breaks off has come to something that it does not get. -/
theorem run_error (raw : ∀ id ∈ known, id.codec = .raw) (looks : (ofNode root known).Looks s)
    {e : ObjectError} (failed : ((ofNode root known).run s).1 = .error e) :
    ∃ id, s.Wants root known id ∧ ¬(ofNode root known).Meets s id ∧
      ∀ id', e = .notFound id' → id' = id ∧
        (s.disk.blocks.get? id = none ∨ (ofNode root known).Falters s id .notFound) := by
  obtain ⟨n, v, t, course, ⟨ended, ran⟩ | ⟨e', u, more, broke, ran⟩⟩ :=
    run_course (ofNode root known) s
  · rw [ran] at failed
    cases failed
  · rw [ran] at failed
    cases failed
    have explores := course.explores raw
    have blocks := course.quiet.blocks
    have given : ∀ id ∈ known, id ∈ v.visited := by
      obtain ⟨ids, visited, -⟩ := explores.found
      exact fun id mem => visited ▸ List.mem_append_right _ (Option.mem_toList.2 mem)
    cases ((step_outcome more).of_eq broke).2.2 e rfl with
    | @missing visited pending count id new absent =>
      rw [blocks] at absent
      refine ⟨id, ⟨explores.seeks.pending id List.mem_cons_self, fun mem => new (given id mem)⟩,
        fun meets => meets.1 absent, fun id' told => ?_⟩
      cases told
      exact ⟨rfl, .inl absent⟩
    | unseen new stuck =>
      obtain ⟨found, ok⟩ := looks course rfl rfl new
      rw [ok] at stuck
      cases stuck
    | @unread visited pending count id e unread =>
      obtain ⟨reached, codec, there⟩ := explores.seeks.reading id rfl
      have same : t.nodeAt? id = s.nodeAt? id := by rw [nodeAt?, nodeAt?, blocks]
      obtain ⟨bad, told⟩ := unread
      rw [blocks] at told
      refine ⟨id, ⟨reached, fun mem => ?_⟩, fun meets => ?_, fun id' notFound => ?_⟩
      · rw [raw id mem] at codec
        cases codec
      · obtain ⟨node, steady⟩ := meets.2 codec
        rcases bad with fault | nowhere
        · obtain ⟨e, fault⟩ := Option.ne_none_iff_exists'.1 fault
          exact steady e ⟨n, _, t, course, rfl, fault⟩
        · exact node (same ▸ nowhere)
      · obtain ⟨rfl, why⟩ := told id' notFound
        exact ⟨rfl, why.imp_right fun fault => ⟨n, _, t, course, rfl, fault⟩⟩

/-- A walk that goes through has got all that its root leads to, and counted it. It has come to
read each node of it. -/
theorem run_ok (raw : ∀ id ∈ known, id.codec = .raw) {k : Nat}
    (ok : ((ofNode root known).run s).1 = .ok k) :
    (∀ id, s.Wants root known id → (ofNode root known).Meets s id) ∧
    (∃ ids : List ContentId, ids.Nodup ∧ (∀ id, id ∈ ids ↔ s.Wants root known id) ∧
      k = ids.length) ∧
    ∀ id, s.Wants root known id → id.codec = .node →
      ∃ n v t, (ofNode root known).Course s n v t ∧ v.expanding = some id := by
  obtain ⟨n, v, t, course, ⟨ended, ran⟩ | ⟨e', u, more, broke, ran⟩⟩ :=
    run_course (ofNode root known) s
  · obtain ⟨ids, nodup, counted, wanted, present⟩ := (course.explores raw).exact ended
    refine ⟨fun id wants => ?_, ⟨ids, nodup, wanted, ?_⟩, fun id wants codec => ?_⟩
    · obtain ⟨-, there, node⟩ := present id ((wanted id).2 wants)
      refine ⟨there, fun codec => ⟨node codec, ?_⟩⟩
      rintro e ⟨n, v, t, course, reading, fault⟩
      rw [course.steady reading ok] at fault
      cases fault
    · rw [ran] at ok
      cases ok
      exact counted.symm
    · have mem := (present id ((wanted id).2 wants)).1
      exact course.entered (fun id given => raw id (Option.mem_toList.1 given)) mem codec
  · rw [ran] at ok
    cases ok

/-- Where no step fails by itself, an object that is there can be read. -/
theorem not_falters (still : s.disk.faults = []) (e : IoError) : ¬w.Falters s id e := by
  rintro ⟨n, v, t, course, -, fault⟩
  rw [fault?, course.quiet.clean still] at fault
  cases fault

theorem looks_of_still (still : s.disk.faults = []) (place : s.disk.blocks ≠ .plainFile) :
    w.Looks s := by
  intro n v t id pending course _ _ _
  have calm := course.quiet.clean still
  have found : ∃ found, t.disk.blocks.contains id = .ok found := by
    rw [course.quiet.blocks]
    unfold Area.contains
    split
    · exact ⟨false, rfl⟩
    · next plain => exact absurd plain place
    · next entries _ => exact ⟨entries.contains id, rfl⟩
  obtain ⟨found, there⟩ := found
  refine ⟨found, ?_⟩
  rw [contains, io_apply, Disk.blockExists, Disk.step_of_still calm, there]
  rfl

/-! ### The order of links -/

end Walk

/-- What a node links to, whatever the order of the links and their number. -/
def Node.linked (node : Node) (id : ContentId) : Prop := id ∈ node.targets

/-- Two stores hold objects under the same ids, and the same ids are linked from the nodes in
them, and from two roots. -/
structure ObjectStore.Alike (root root' : Node) (s s' : ObjectStore) : Prop where
  roots : root.linked = root'.linked
  stored : ∀ id, s.disk.blocks.get? id = none ↔ s'.disk.blocks.get? id = none
  nodes : ∀ id, (s.nodeAt? id).map Node.linked = (s'.nodeAt? id).map Node.linked

namespace ObjectStore

variable {root root' : Node} {s s' : ObjectStore} {known : Option ContentId} {id : ContentId}

theorem Alike.symm (h : Alike root root' s s') : Alike root' root s' s where
  roots := h.roots.symm
  stored := fun id => (h.stored id).symm
  nodes := fun id => (h.nodes id).symm

theorem Alike.reaches (h : Alike root root' s s') (reached : Reaches s root id) :
    Reaches s' root' id := by
  induction reached with
  | @link id linked =>
    have linked : root.linked id := linked
    rw [h.roots] at linked
    exact .link linked
  | @through id id' node _ found linked ih =>
    have same := h.nodes id
    rw [found] at same
    obtain ⟨node', found', targets⟩ := Option.map_eq_some_iff.1 same.symm
    have linked : node.linked id' := linked
    rw [← targets] at linked
    exact .through ih found' linked

theorem Alike.wants (h : Alike root root' s s') :
    s.Wants root known id ↔ s'.Wants root' known id :=
  and_congr_left' ⟨h.reaches, h.symm.reaches⟩

end ObjectStore

namespace Walk

open ObjectStore

variable {root root' : Node} {s s' : ObjectStore} {known : Option ContentId}
  {broken : ContentId → Prop} {id : ContentId} {k : Nat}

/-- The objects that a walk cannot read, though they may be there, are the broken ones. -/
def BreaksAt (w : Walk) (s : ObjectStore) (broken : ContentId → Prop) : Prop :=
  ∀ {n v t id}, w.Course s n v t → v.expanding = some id → (t.fault? ≠ none ↔ broken id)

theorem run_ok_of_alike (alike : Alike root root' s s') (raw : ∀ id ∈ known, id.codec = .raw)
    (looks : (ofNode root' known).Looks s') (breaks : (ofNode root known).BreaksAt s broken)
    (breaks' : (ofNode root' known).BreaksAt s' broken)
    (ok : ((ofNode root known).run s).1 = .ok k) : ((ofNode root' known).run s').1 = .ok k := by
  obtain ⟨meets, ⟨ids, nodup, wanted, counted⟩, read⟩ := run_ok raw ok
  cases ran : ((ofNode root' known).run s').1 with
  | error e =>
    obtain ⟨id, wants, lacks, -⟩ := run_error raw looks ran
    have wants := alike.wants.2 wants
    obtain ⟨there, node⟩ := meets id wants
    refine absurd ⟨fun absent => there ((alike.stored id).2 absent), fun codec => ⟨?_, ?_⟩⟩ lacks
    · intro nowhere
      have same := alike.nodes id
      rw [nowhere, Option.map_none, Option.map_eq_none_iff] at same
      exact (node codec).1 same
    · rintro e ⟨n, v, t, course, reading, fault⟩
      obtain ⟨n', v', t', course', reading'⟩ := read id wants codec
      have bad := (breaks' course reading).1 (by rw [fault]; exact Option.some_ne_none e)
      exact (breaks course' reading').2 bad (course'.steady reading' ok)
  | ok k' =>
    obtain ⟨-, ⟨ids', nodup', wanted', counted'⟩, -⟩ := run_ok raw ran
    have same : ∀ id, id ∈ ids ↔ id ∈ ids' := fun id => by rw [wanted, wanted', alike.wants]
    rw [counted, counted', ((List.perm_ext_iff_of_nodup nodup nodup').2 same).length_eq]

/-- A walk ends, within as many steps as there are links in its root and blocks and links in the
store. It goes through exactly if all that the root leads to, but what is known, is stored and its
nodes can be read, and counts these ids, each one once; the order of the links and how often they
are repeated make no difference. That something was not found means that the root leads to it and
it is missing, unless a fault has said so. -/
theorem run_closure (root : Node) (raw : ∀ id ∈ known, id.codec = .raw)
    (looks : (ofNode root known).Looks s) :
    (∃ n v t, n ≤ root.targets.length + extent s ∧ (ofNode root known).Course s n v t ∧
      (v.isOver ∧ (ofNode root known).run s = (.ok v.count, t) ∨
        ∃ e u, v.step t = (.error e, u) ∧ (ofNode root known).run s = (.error e, u))) ∧
    ((∃ k, ((ofNode root known).run s).1 = .ok k) ↔
      ∀ id, s.Wants root known id → s.disk.blocks.get? id ≠ none ∧
        (id.codec = .node → s.nodeAt? id ≠ none ∧ ∀ e, ¬(ofNode root known).Falters s id e)) ∧
    (∀ k, ((ofNode root known).run s).1 = .ok k → ∃ ids : List ContentId,
      ids.Nodup ∧ (∀ id, id ∈ ids ↔ s.Wants root known id) ∧ k = ids.length) ∧
    (∀ root' s' broken, Alike root root' s s' → (ofNode root' known).Looks s' →
      (ofNode root known).BreaksAt s broken → (ofNode root' known).BreaksAt s' broken →
      ∀ k, ((ofNode root known).run s).1 = .ok k ↔ ((ofNode root' known).run s').1 = .ok k) ∧
    ∀ id, ((ofNode root known).run s).1 = .error (.notFound id) → s.Wants root known id ∧
      (s.disk.blocks.get? id = none ∨ (ofNode root known).Falters s id .notFound) := by
  refine ⟨?_, ⟨fun ⟨k, ok⟩ => (run_ok raw ok).1, fun meets => ?_⟩,
    fun k ok => (run_ok raw ok).2.1, fun root' s' broken alike looks' breaks breaks' k => ?_,
    fun id failed => ?_⟩
  · obtain ⟨n, v, t, course, ends⟩ := run_course (ofNode root known) s
    have bound := course.work_le
    have whole := work_ofNode root known s
    refine ⟨n, v, t, by omega, course, ends.imp_right ?_⟩
    rintro ⟨e, u, -, broke, ran⟩
    exact ⟨e, u, broke, ran⟩
  · cases ran : ((ofNode root known).run s).1 with
    | ok k => exact ⟨k, rfl⟩
    | error e =>
      obtain ⟨id, wants, lacks, -⟩ := run_error raw looks ran
      exact absurd (meets id wants) lacks
  · exact ⟨run_ok_of_alike alike raw looks' breaks breaks',
      run_ok_of_alike alike.symm raw looks breaks' breaks⟩
  · obtain ⟨id', wants, -, told⟩ := run_error raw looks failed
    obtain ⟨rfl, why⟩ := told id rfl
    exact ⟨wants, why⟩

/-! ### A node that links to itself -/

def loopId : ContentId := ⟨.node, List.replicate 32 0, rfl⟩

def leafId : ContentId := ⟨.raw, List.replicate 32 0, rfl⟩

/-- No hash has such a node, so its block has been tampered with. -/
def loop : Node :=
  { data := [], links := [⟨"self", loopId, 0⟩, ⟨"leaf", leafId, 0⟩, ⟨"again", loopId, 0⟩] }

/-- The leaf is not here. -/
def looped : ObjectStore :=
  { disk := { blocks := .directory (Table.put ∅ loopId (.file loop.toBytes)) } }

theorem nodeAt?_looped : looped.nodeAt? loopId = some loop :=
  nodeAt?_eq_some_iff.2
    ⟨rfl, loop.toBytes, rfl, toOption_eq_some_iff.1 (by decide +kernel)⟩

theorem get?_looped (id : ContentId) : looped.disk.blocks.get? id =
    if id = loopId then some (.file loop.toBytes) else none :=
  Table.get?_put ∅ loopId id _

theorem reaches_looped (reached : Reaches looped loop id) : id = loopId ∨ id = leafId := by
  have linked : ∀ id ∈ loop.targets, id = loopId ∨ id = leafId := by decide +kernel
  cases reached with
  | link mem => exact linked id mem
  | @through id' _ node before found mem =>
    obtain ⟨-, bytes, file, -⟩ := nodeAt?_eq_some_iff.1 found
    by_cases same : id' = loopId
    · rw [same, nodeAt?_looped] at found
      cases found
      exact linked id mem
    · rw [get?_looped, if_neg same] at file
      cases file

/-- A node that is linked from itself is counted once, and a leaf that is known is not asked for. -/
theorem loop_walked : (∀ id ∈ some leafId, id.codec = .raw) ∧
    (ofNode loop (some leafId)).Looks looped ∧
    ((ofNode loop (some leafId)).run looped).1 = .ok 1 := by
  have raw : ∀ id ∈ some leafId, id.codec = .raw := fun id mem => Option.some.inj mem ▸ rfl
  have looks : (ofNode loop (some leafId)).Looks looped :=
    looks_of_still rfl fun plain => by cases plain
  have wanted : ∀ id, looped.Wants loop (some leafId) id ↔ id = loopId := by
    refine fun id => ⟨fun ⟨reached, new⟩ => ?_, ?_⟩
    · exact (reaches_looped reached).resolve_right fun leaf => new (leaf ▸ rfl)
    · rintro rfl
      exact ⟨.link (by decide +kernel), by decide +kernel⟩
  obtain ⟨-, goes, counts, -, -⟩ := run_closure loop raw looks
  obtain ⟨k, ok⟩ := goes.2 fun id wants => by
    rw [(wanted id).1 wants, get?_looped, if_pos rfl, nodeAt?_looped]
    exact ⟨Option.some_ne_none _, fun _ => ⟨Option.some_ne_none _, not_falters rfl⟩⟩
  obtain ⟨ids, nodup, mem, rfl⟩ := counts k ok
  have single : ids.Perm [loopId] := by
    refine (List.perm_ext_iff_of_nodup nodup (List.pairwise_singleton _ _)).2 fun id => ?_
    rw [mem, wanted, List.mem_singleton]
  have one : ids.length = 1 := single.length_eq
  rw [one] at ok
  exact ⟨raw, looks, ok⟩

end Walk

end Relay
