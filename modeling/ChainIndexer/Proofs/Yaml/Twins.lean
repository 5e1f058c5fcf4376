import ChainIndexer.Yaml.Document
import Mathlib.Logic.Basic

/-!
What stands under several names of a document. The names of an object that has been built differ,
since its fields are put together one by one and a name that is there already is replaced
(`nodup_withField`), and no other step of building makes objects with fields (`finish_keeps`). So the
names of a document fall into classes, a name and its twins, and all names of a class stand for the
same value (`Document.read_shares`).
-/

namespace ChainIndexer

/-- What a value has under a name, if it is an object that has the name. -/
def Value.part? (v : Value) (name : String) : Option Value :=
  match v with
  | .object fields => Value.field? fields name
  | _ => none

end ChainIndexer

namespace ChainIndexer.Yaml

/-- The names of every object that has been built differ. -/
def Builder.NamesDiffer (s : Builder) : Prop :=
  ∀ (id : Nat) (fields : List (String × Nat)), s.built[id]? = some (some (.object fields)) →
    (fields.map Prod.fst).Nodup

/-- The twins of a name stand for the same value, and names that have a twin in common have all of
them in common. -/
structure Document.Shares (d : Document) : Prop where
  same : ∀ {name twin}, twin ∈ d.twins name → d.value.part? twin = d.value.part? name
  meets : ∀ {p q t}, t ∈ p :: d.twins p → t ∈ q :: d.twins q →
    ∀ u ∈ q :: d.twins q, u ∈ p :: d.twins p

namespace Build

variable {α β : Type} {P : α → Prop} {Q : β → Prop}

/-- A step of building that leaves the names of objects different and gives something with a
property, unless it is refused. -/
def Gives (P : α → Prop) (x : Build α) : Prop :=
  ∀ s a s', s.NamesDiffer → x.run s = .ok (a, s') → s'.NamesDiffer ∧ P a

/-- A step of building that leaves the names of objects different. -/
abbrev Keeps (x : Build α) : Prop :=
  Gives (fun _ => True) x

namespace Gives

theorem pure {a : α} (h : P a) : Gives P (Pure.pure a) := by
  intro s b s' hs hrun
  cases hrun
  exact ⟨hs, h⟩

theorem throw (p : Problem) : Gives P (throw p : Build α) := by
  intro s a s' hs hrun
  cases hrun

theorem bind {x : Build α} {f : α → Build β} (hx : Gives P x) (hf : ∀ a, P a → Gives Q (f a)) :
    Gives Q (x >>= f) := by
  intro s b s' hs hrun
  rw [StateT.run_bind] at hrun
  cases hfirst : x.run s with
  | error p =>
    rw [hfirst] at hrun
    cases hrun
  | ok r =>
    obtain ⟨a, s₁⟩ := r
    rw [hfirst] at hrun
    obtain ⟨hs₁, ha⟩ := hx s a s₁ hs hfirst
    exact hf a ha s₁ b s' hs₁ hrun

/-- A step after one of which nothing is known but that it keeps the names different. -/
theorem after {x : Build α} {f : α → Build β} (hx : Keeps x) (hf : ∀ a, Gives Q (f a)) :
    Gives Q (x >>= f) :=
  hx.bind fun a _ => hf a

theorem read : Gives (fun _ => True) (get : Build Builder) := by
  intro s a s' hs hrun
  cases hrun
  exact ⟨hs, trivial⟩

theorem modify {f : Builder → Builder} (h : ∀ s, s.NamesDiffer → (f s).NamesDiffer) :
    Keeps (modify f : Build Unit) := by
  intro s a s' hs hrun
  cases hrun
  exact ⟨h s hs, trivial⟩

theorem forM {xs : List α} {f : α → Build Unit} (h : ∀ x, Keeps (f x)) : Keeps (xs.forM f) := by
  induction xs with
  | nil => exact pure trivial
  | cons x rest ih => exact (h x).after fun _ => ih

theorem mapM {xs : List α} {f : α → Build β} (h : ∀ x, Keeps (f x)) : Keeps (xs.mapM f) := by
  induction xs with
  | nil => exact pure trivial
  | cons x rest ih =>
    rw [List.mapM_cons]
    exact (h x).after fun _ => ih.after fun _ => pure trivial

theorem findM? {xs : List α} {f : α → Build Bool} (h : ∀ x, Keeps (f x)) :
    Keeps (xs.findM? f) := by
  induction xs with
  | nil => exact pure trivial
  | cons x rest ih =>
    refine (h x).after fun found => ?_
    cases found with
    | true => exact pure trivial
    | false => exact ih

theorem foldlM {xs : List α} {f : β → α → Build β} {start : β} (hstart : Q start)
    (h : ∀ b x, Q b → Gives Q (f b x)) : Gives Q (xs.foldlM f start) := by
  induction xs generalizing start with
  | nil => exact pure hstart
  | cons x rest ih =>
    rw [List.foldlM_cons]
    exact (h start x hstart).bind fun b hb => ih hb

theorem forIn {xs : List α} {f : α → PUnit → Build (ForInStep PUnit)}
    (h : ∀ x u, Keeps (f x u)) : Keeps (ForIn.forIn xs PUnit.unit f) := by
  induction xs with
  | nil => exact pure trivial
  | cons x rest ih =>
    rw [List.forIn_cons]
    refine (h x _).after fun step => ?_
    cases step with
    | done u => exact pure trivial
    | yield u => exact ih

end Gives

/-! ### The steps -/

theorem refuse_gives : Gives P (refuse : Build α) :=
  .throw _

theorem node_keeps (id : Nat) : Keeps (node id) := by
  refine Gives.read.after fun s => ?_
  split
  · exact .pure trivial
  · exact refuse_gives

theorem built?_keeps (id : Nat) : Keeps (built? id) :=
  Gives.read.after fun _ => .pure trivial

theorem put_keeps {id : Nat} {b : Built}
    (h : ∀ fields, b = .object fields → (fields.map Prod.fst).Nodup) : Keeps (put id b) := by
  refine .modify fun s hs id' fields hfields => ?_
  dsimp only at hfields
  rw [Array.getElem?_setIfInBounds] at hfields
  split at hfields
  · split at hfields
    · exact h fields (Option.some.inj (Option.some.inj hfields))
    · cases hfields
  · exact hs id' fields hfields

theorem entriesOf_keeps (id : Nat) : Keeps (entriesOf id) := by
  refine (node_keeps id).after fun n => ?_
  split
  · exact .pure trivial
  · exact refuse_gives

theorem setEntries_keeps (id : Nat) (entries : List (Nat × Nat)) : Keeps (setEntries id entries) :=
  .modify fun _ hs => hs

theorem hasTag_keeps (tag : Tag) (id : Nat) : Keeps (hasTag tag id) :=
  (node_keeps id).after fun _ => .pure trivial

theorem textOf_keeps (fuel id : Nat) : Keeps (textOf fuel id) := by
  induction fuel generalizing id with
  | zero => exact .throw _
  | succ fuel ih =>
    refine (node_keeps id).after fun n => ?_
    split
    · exact .pure trivial
    · refine (Gives.findM? fun (e : Nat × Nat) => hasTag_keeps .value e.1).after fun found => ?_
      cases found with
      | none => exact refuse_gives
      | some e => exact ih e.2
    · exact refuse_gives

theorem lift_keeps (x : Except Problem α) : Keeps (liftM x : Build α) := by
  cases x with
  | error p => exact Gives.throw p
  | ok a => exact Gives.pure trivial

theorem leaf_keeps (id : Nat) : Keeps (leaf id) := by
  refine Gives.read.after fun s => (textOf_keeps _ id).after fun text => ?_
  refine (node_keeps id).after fun n => ?_
  split
  · exact .throw _
  · exact lift_keeps _

theorem hollow?_nodup {tag : Tag} {b : Built} (h : hollow? tag = some b)
    {fields : List (String × Nat)} (hb : b = .object fields) : (fields.map Prod.fst).Nodup := by
  subst hb
  unfold hollow? at h
  split at h <;> cases h
  exact List.nodup_nil

theorem start_keeps (id : Nat) : Keeps (start id) := by
  refine (built?_keeps id).after fun found => ?_
  split
  · refine (node_keeps id).after fun n => ?_
    split
    · rename_i b hb
      exact (put_keeps fun fields => hollow?_nodup hb).after fun _ => .modify fun _ hs => hs
    · exact (leaf_keeps id).after fun v => put_keeps fun fields h => nomatch h
  · exact .pure trivial

theorem startKey_keeps (id : Nat) : Keeps (startKey id) := by
  refine (start_keeps id).after fun _ => (built?_keeps id).after fun found => ?_
  split
  · exact .pure trivial
  · exact refuse_gives

theorem takeMerge_keeps (id : Nat) : Keeps (takeMerge id) := by
  refine (entriesOf_keeps id).after fun entries => ?_
  refine (Gives.findM? fun (e : Nat × Nat) => hasTag_keeps .merge e.1).after fun found => ?_
  split
  · exact (setEntries_keeps _ _).after fun _ => .pure trivial
  · exact .pure trivial

theorem plainKeys_keeps (id : Nat) : Keeps (plainKeys id) := by
  refine (entriesOf_keeps id).after fun entries => ?_
  refine (Gives.forIn fun e u => ?_).after fun _ => .pure trivial
  refine (hasTag_keeps .value e.1).after fun isValue => ?_
  split
  · exact Gives.after (.modify fun _ hs => hs) fun _ => .pure trivial
  · exact .pure trivial

mutual

theorem merged_keeps (fuel id : Nat) : Keeps (merged fuel id) := by
  cases fuel with
  | zero => exact refuse_gives
  | succ fuel =>
    refine (takeMerge_keeps id).after fun found => ?_
    split
    · exact .pure trivial
    · have hrest : ∀ es, Keeps (do return es ++ (← merged fuel id)) := fun es =>
        (merged_keeps fuel id).after fun _ => .pure trivial
      refine (node_keeps _).after fun n => ?_
      dsimp only
      split
      · exact (flatten_keeps fuel _).after fun _ => (entriesOf_keeps _).after hrest
      · refine (Gives.mapM fun item => ?_).after fun each => hrest _
        exact (entriesOf_keeps item).after fun _ =>
          (flatten_keeps fuel item).after fun _ => entriesOf_keeps item
      · exact refuse_gives.after hrest

theorem flatten_keeps (fuel id : Nat) : Keeps (flatten fuel id) := by
  cases fuel with
  | zero => exact refuse_gives
  | succ fuel =>
    exact (merged_keeps fuel id).after fun _ => (plainKeys_keeps id).after fun _ =>
      (entriesOf_keeps id).after fun _ => setEntries_keeps _ _

end

theorem entries_keeps (id : Nat) : Keeps (entries id) := by
  refine Gives.read.after fun s => (flatten_keeps _ id).after fun _ => ?_
  refine (entriesOf_keeps id).after fun es => ?_
  refine Gives.after (.forIn fun e u => ?_) fun _ => .pure trivial
  exact (startKey_keeps e.1).after fun _ => (start_keeps e.2).after fun _ => .pure trivial

theorem soleEntry_keeps (id : Nat) : Keeps (soleEntry id) := by
  refine (entriesOf_keeps id).after fun es => ?_
  split
  · exact (start_keeps _).after fun _ => (start_keeps _).after fun _ => .pure trivial
  · exact refuse_gives

/-- A field that is put to others of different names has none of them or replaces the one of its
name. -/
theorem nodup_withField {fields : List (String × Nat)} (h : (fields.map Prod.fst).Nodup)
    (key : String) (id : Nat) : ((withField fields key id).map Prod.fst).Nodup := by
  unfold withField
  split
  · have hnames : (fields.map fun f => if f.1 == key then (key, id) else f).map Prod.fst =
        fields.map Prod.fst := by
      rw [List.map_map]
      refine List.map_congr_left fun f _ => ?_
      by_cases hf : f.1 = key
      · simp [hf]
      · simp [hf]
    rwa [hnames]
  · rename_i hnew
    have hnew : key ∉ fields.map Prod.fst := by simpa using hnew
    rw [List.map_append, List.nodup_append]
    refine ⟨h, by simp, fun a ha b hb => ?_⟩
    rw [List.map_singleton, List.mem_singleton] at hb
    rintro rfl
    rw [hb] at ha
    exact hnew ha

theorem textFields_gives (entries : List (Nat × Nat)) :
    Gives (fun fields => (fields.map Prod.fst).Nodup) (textFields entries) := by
  refine Gives.foldlM List.nodup_nil fun fields e hfields => ?_
  refine (built?_keeps e.1).after fun found => ?_
  split
  · exact .pure (nodup_withField hfields _ _)
  · exact .pure hfields

theorem finish_keeps (id : Nat) : Keeps (finish id) := by
  refine (node_keeps id).after fun n => ?_
  split
  · exact (Gives.forM start_keeps).after fun _ => put_keeps fun fields h => nomatch h
  · refine (entries_keeps id).after fun es => (textFields_gives es).bind fun fields hfields => ?_
    refine put_keeps fun fields' h => ?_
    cases h
    exact hfields
  · exact (entries_keeps id).after fun _ => put_keeps fun fields h => nomatch h
  · exact (Gives.mapM soleEntry_keeps).after fun _ => put_keeps fun fields h => nomatch h
  · exact (Gives.mapM soleEntry_keeps).after fun _ => put_keeps fun fields h => nomatch h
  · exact refuse_gives

theorem finishAll_keeps (fuel : Nat) : Keeps (finishAll fuel) := by
  induction fuel with
  | zero => exact .pure trivial
  | succ fuel ih =>
    refine Gives.read.after fun s => ?_
    dsimp only
    split
    · exact Gives.after (.modify fun _ hs => hs) fun _ => (Gives.forM finish_keeps).after fun _ => ih
    · exact .pure trivial

end Build

/-! ### Documents -/

/-- The names of fields that stand for the same node as a name does, that name apart. -/
def twinsIn (fields : List (String × Nat)) (name : String) : List String :=
  match fields.find? fun f => f.1 == name with
  | some (_, id) => (fields.filter fun f => f.1 != name && f.2 == id).map (·.1)
  | none => []

section Fields

variable {fields : List (String × Nat)}

theorem find?_eq_some_iff (h : (fields.map Prod.fst).Nodup) {name : String} {f : String × Nat} :
    fields.find? (fun g => g.1 == name) = some f ↔ f ∈ fields ∧ f.1 = name := by
  induction fields with
  | nil => simp
  | cons g rest ih =>
    rw [List.map_cons, List.nodup_cons] at h
    by_cases hg : g.1 = name
    · rw [List.find?_cons_of_pos (by simpa using hg), Option.some.injEq]
      constructor
      · rintro rfl
        exact ⟨List.mem_cons_self, hg⟩
      · rintro ⟨hf, hname⟩
        rcases List.mem_cons.mp hf with rfl | hf
        · rfl
        · exact absurd (hg.trans hname.symm ▸ List.mem_map_of_mem hf) h.1
    · rw [List.find?_cons_of_neg (by simpa using hg), ih h.2, List.mem_cons]
      constructor
      · exact fun ⟨hf, hname⟩ => ⟨Or.inr hf, hname⟩
      · rintro ⟨rfl | hf, hname⟩
        · exact absurd hname hg
        · exact ⟨hf, hname⟩

/-- A name stands for one node. -/
theorem eq_of_mem_fields (h : (fields.map Prod.fst).Nodup) {name : String} {i j : Nat}
    (hi : (name, i) ∈ fields) (hj : (name, j) ∈ fields) : i = j := by
  have hfirst := (find?_eq_some_iff h).mpr ⟨hi, rfl⟩
  have hsecond := (find?_eq_some_iff h).mpr ⟨hj, rfl⟩
  exact congrArg Prod.snd (Option.some.inj (hfirst.symm.trans hsecond))

/-- The class of a name: the name and those that stand for the same node. -/
theorem mem_class_iff (h : (fields.map Prod.fst).Nodup) {name u : String} :
    u ∈ name :: twinsIn fields name ↔
      u = name ∨ ∃ id, (name, id) ∈ fields ∧ (u, id) ∈ fields := by
  rw [List.mem_cons]
  refine or_congr_right' fun hne => ?_
  unfold twinsIn
  constructor
  · intro hu
    split at hu
    · rename_i name' id hfind
      obtain ⟨hmem, rfl⟩ := (find?_eq_some_iff h).mp hfind
      obtain ⟨f, hf, rfl⟩ := List.mem_map.mp hu
      obtain ⟨hf, hid⟩ := List.mem_filter.mp hf
      have hid : f.2 = id := by simp_all
      exact ⟨id, hmem, hid ▸ hf⟩
    · cases hu
  · rintro ⟨id, hmem, hu⟩
    rw [(find?_eq_some_iff h).mpr ⟨hmem, rfl⟩]
    refine List.mem_map.mpr ⟨(u, id), List.mem_filter.mpr ⟨hu, ?_⟩, rfl⟩
    simpa using hne

theorem class_meets (h : (fields.map Prod.fst).Nodup) {p q t : String}
    (hp : t ∈ p :: twinsIn fields p) (hq : t ∈ q :: twinsIn fields q) :
    ∀ u ∈ q :: twinsIn fields q, u ∈ p :: twinsIn fields p := by
  intro u hu
  rw [mem_class_iff h] at hp hq hu ⊢
  rcases hq with rfl | ⟨i, hqi, hti⟩
  · rcases hu with rfl | ⟨j, htj, huj⟩
    · exact hp
    · rcases hp with rfl | ⟨k, hpk, htk⟩
      · exact Or.inr ⟨j, htj, huj⟩
      · exact Or.inr ⟨k, hpk, eq_of_mem_fields h htj htk ▸ huj⟩
  · -- the node of `q` is the one of `p`
    have hui : (u, i) ∈ fields := by
      rcases hu with rfl | ⟨j, hqj, huj⟩
      · exact hqi
      · exact eq_of_mem_fields h hqj hqi ▸ huj
    rcases hp with rfl | ⟨k, hpk, htk⟩
    · exact Or.inr ⟨i, hti, hui⟩
    · exact Or.inr ⟨k, hpk, eq_of_mem_fields h hti htk ▸ hui⟩

theorem field?_map (fields : List (String × Nat)) (part : Nat → Value) (key : String) :
    Value.field? (fields.map fun f => (f.1, part f.2)) key =
      (fields.find? fun f => f.1 == key).map fun f => part f.2 := by
  rw [Value.field?, List.find?_map, Option.map_map]
  rfl

end Fields

/-- The fields of a value are those of what was built, one by one. -/
theorem value_of_built {built : Array (Option Built)} {root : Nat} {fields : List (String × Nat)}
    (h : built[root]? = some (some (.object fields))) :
    ∃ part : Nat → Value,
      (valuesTo built levels)[root]? = some (.object (fields.map fun f => (f.1, part f.2))) := by
  have hlevels : valuesTo built levels =
      built.map fun b => (b.map (·.value (valuesTo built (levels - 1)))).getD .null := rfl
  rw [hlevels, Array.getElem?_map, h]
  exact ⟨fun id => ((valuesTo built (levels - 1))[id]?).getD .null, rfl⟩

theorem fresh_namesDiffer (nodes : Array Node) (depth : Nat) :
    Builder.NamesDiffer { nodes, built := .replicate nodes.size none, depth } := by
  intro id fields hfields
  dsimp only at hfields
  rw [Array.getElem?_replicate] at hfields
  split at hfields
  · cases hfields
  · cases hfields

theorem shares_of_no_twins {d : Document} (h : ∀ name, d.twins name = []) : d.Shares := by
  refine ⟨fun htwin => ?_, fun {p q t} hp hq u hu => ?_⟩
  · rw [h] at htwin
    cases htwin
  · rw [h, List.mem_singleton] at hp hq hu
    rw [hu, ← hq, hp]
    exact List.mem_cons_self

theorem Graph.document_shares {g : Graph} {d : Document} (h : g.document = .ok d) : d.Shares := by
  unfold Graph.document at h
  dsimp only at h
  cases hbuild : StateT.run (do Build.start g.root; Build.finishAll (g.nodes.size + 1) : Build Unit)
      { nodes := g.nodes, built := Array.replicate g.nodes.size none, depth := _ } with
  | error p =>
    rw [hbuild] at h
    cases h
  | ok r =>
    obtain ⟨u, s⟩ := r
    rw [hbuild] at h
    cases h
    have hnames := (((Build.start_keeps g.root).after fun _ => Build.finishAll_keeps _)
      _ _ _ (fresh_namesDiffer g.nodes _) hbuild).1
    cases hroot : s.built[g.root]?.join with
    | none => exact shares_of_no_twins fun name => rfl
    | some b =>
      cases b with
      | object fields =>
        have hbuilt : s.built[g.root]? = some (some (.object fields)) :=
          Option.join_eq_some_iff.mp hroot
        have hnodup := hnames _ _ hbuilt
        obtain ⟨part, hvalue⟩ := value_of_built hbuilt
        refine ⟨fun {name twin} htwin => ?_, class_meets hnodup⟩
        rcases (mem_class_iff hnodup).mp (List.mem_cons_of_mem _ htwin) with rfl | ⟨id, hname, htwin⟩
        · rfl
        · dsimp only
          rw [hvalue]
          change Value.field? _ twin = Value.field? _ name
          rw [field?_map, field?_map, (find?_eq_some_iff hnodup).mpr ⟨hname, rfl⟩,
            (find?_eq_some_iff hnodup).mpr ⟨htwin, rfl⟩]
          rfl
      | leaf v => exact shares_of_no_twins fun name => rfl
      | list items => exact shares_of_no_twins fun name => rfl
      | pairs entries => exact shares_of_no_twins fun name => rfl

/-- What a document has under a name it has under the twins of the name. -/
theorem Document.read_shares {s : String} {d : Document} (h : Document.read s = .ok d) :
    d.Shares := by
  unfold Document.read at h
  dsimp only at h
  split at h
  · cases h
  · cases hgraph : Graph.ofTokens (.ofChars (normalLines s.toList)) with
    | error p =>
      rw [hgraph] at h
      cases h
    | ok g? =>
      rw [hgraph] at h
      cases g? with
      | none =>
        cases h
        exact shares_of_no_twins fun name => rfl
      | some g => exact Graph.document_shares h

end ChainIndexer.Yaml
