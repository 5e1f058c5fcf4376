import ChainIndexer.Proofs.Activity
import ChainIndexer.Proofs.Yaml.Twins
import ChainIndexer.Settings.Load

/-!
What the environment does to the document of the settings. A variable can be put into a part of the
document if the document is an object and the part is one too or missing; the size of a page also in
the place of a part that counts as nothing. Everything else is refused, whatever the other variables
are (`overrideAll_cases`), because putting a variable into a part changes nothing about which parts
are open to another one (`Reworked`). If all variables can be put in, each of them stands under its
key in its part and in the parts that are one with it, and nothing else has changed there.
-/

namespace ChainIndexer

namespace Value

def IsObject (v : Value) : Prop :=
  ∃ fields, v = .object fields

/-- What a part of a value has under a key. -/
def nested? (v : Value) (part key : String) : Option Value :=
  (v.part? part).bind fun inner => inner.part? key

theorem field?_cons (f : String × Value) (rest : List (String × Value)) (name : String) :
    field? (f :: rest) name = if f.1 = name then some f.2 else field? rest name := by
  unfold field?
  by_cases h : f.1 = name
  · simp [h]
  · simp [h]

theorem field?_setField (fields : List (String × Value)) (key : String) (x : Value)
    (name : String) :
    field? (setField fields key x) name = if name = key then some x else field? fields name := by
  induction fields with
  | nil =>
    rw [setField, field?_cons]
    simp only [eq_comm]
  | cons f rest ih =>
    rw [setField]
    split
    · rename_i hf
      rw [field?_cons, field?_cons, hf]
      by_cases h : name = key
      · simp [h]
      · simp [h, Ne.symm h]
    · rename_i hf
      rw [field?_cons, field?_cons, ih]
      by_cases h : name = key
      · simp [h, hf]
      · simp [h]

/-- A value that counts as nothing has no parts. -/
theorem part?_orElse (v : Value) (name : String) :
    (v.orElse (.object [])).part? name = v.part? name := by
  unfold orElse
  split
  · rfl
  · cases v with
    | object fields =>
      cases fields with
      | nil => rfl
      | cons f rest => simp_all [truthy]
    | _ => rfl

theorem nested?_orElse (v : Value) (part key : String) :
    (v.orElse (.object [])).nested? part key = v.nested? part key := by
  rw [nested?, part?_orElse]
  rfl

end Value

namespace Settings

/-- What a variable of the environment sets, unless it is missing or empty. -/
def setting? (env : Environment) (name : String) : Option String :=
  (env name).filter fun s => !s.isEmpty

/-- A part that is missing, or an object, so that something can be put into it. -/
def Opens (inner? : Option Value) : Prop :=
  ∀ x, inner? = some x → x.IsObject

/-- A part that is missing, an object, or counts as nothing. -/
def Yields (inner? : Option Value) : Prop :=
  ∀ x, inner? = some x → x.truthy = true → x.IsObject

/-- The refusals of an operation on a value of the wrong shape. -/
def IsMisfit (f : Fault) : Prop :=
  f = .wrongType ∨ f = .noMember

/-! ### Setting fields -/

theorem setField_object {v : Value} (hv : v.IsObject) (key : String) (x : Value) :
    ∃ w, setField v key x = .ok w ∧ w.IsObject ∧
      ∀ name, w.part? name = if name = key then some x else v.part? name := by
  obtain ⟨fields, rfl⟩ := hv
  exact ⟨_, rfl, ⟨_, rfl⟩, Value.field?_setField fields key x⟩

theorem setField_misfit {v : Value} (hv : ¬v.IsObject) (key : String) (x : Value) :
    setField v key x = .error .wrongType := by
  cases v with
  | object fields => exact absurd ⟨fields, rfl⟩ hv
  | _ => rfl

theorem foldlM_setField {v : Value} (hv : v.IsObject) (names : List String) (inner : Value) :
    ∃ w, names.foldlM (fun v name => setField v name inner) v = .ok w ∧ w.IsObject ∧
      ∀ name, w.part? name = if name ∈ names then some inner else v.part? name := by
  induction names generalizing v with
  | nil => exact ⟨v, rfl, hv, fun name => by simp⟩
  | cons key rest ih =>
    obtain ⟨w, hw, hobject, hparts⟩ := setField_object hv key inner
    obtain ⟨w', hw', hobject', hparts'⟩ := ih hobject
    refine ⟨w', ?_, hobject', fun name => ?_⟩
    · rw [List.foldlM_cons, bind_of_ok hw]
      exact hw'
    · rw [hparts', hparts]
      by_cases hkey : name = key <;> by_cases hrest : name ∈ rest <;> simp [hkey, hrest]

variable {twins : String → List String} {v₀ v : Value} {part key : String} {env : Environment}

/-- The object under a name, an empty one if there is none. -/
theorem getD_open {fields : List (String × Value)}
    (hopen : Opens ((Value.object fields).part? part)) :
    ((Value.field? fields part).getD (.object [])).IsObject ∧
      ∀ k, ((Value.field? fields part).getD (.object [])).part? k =
        (Value.object fields).nested? part k := by
  cases hfield : Value.field? fields part with
  | none => exact ⟨⟨[], rfl⟩, fun k => by rw [Value.nested?, Value.part?, hfield]; rfl⟩
  | some inner => exact ⟨hopen inner hfield, fun k => by rw [Value.nested?, Value.part?, hfield]; rfl⟩

/-- Something is put into a part and its twins: they become one object, which has it under its
key. -/
theorem setInSection_open (hv : v.IsObject) (hopen : Opens (v.part? part)) (x : Value) :
    ∃ w inner, setInSection twins v part key x = .ok w ∧ w.IsObject ∧ inner.IsObject ∧
      (∀ k, inner.part? k = if k = key then some x else v.nested? part k) ∧
      ∀ name, w.part? name = if name ∈ part :: twins part then some inner else v.part? name := by
  obtain ⟨fields, rfl⟩ := hv
  obtain ⟨hobject, hentries⟩ := getD_open hopen
  obtain ⟨inner, hinner, hinnerObject, hkeys⟩ := setField_object hobject key x
  obtain ⟨w, hw, hwObject, hparts⟩ := foldlM_setField ⟨fields, rfl⟩ (part :: twins part) inner
  refine ⟨w, inner, ?_, hwObject, hinnerObject, fun k => by rw [hkeys, hentries], hparts⟩
  exact (bind_of_ok hinner _).trans hw

theorem setInSection_misfit (h : ¬(v.IsObject ∧ Opens (v.part? part))) (x : Value) :
    ∃ f, setInSection twins v part key x = .error f ∧ IsMisfit f := by
  cases v with
  | object fields =>
    refine ⟨.wrongType, ?_, Or.inl rfl⟩
    have hclosed : ¬((Value.field? fields part).getD (.object [])).IsObject := by
      intro hobject
      refine h ⟨⟨fields, rfl⟩, fun inner hfield => ?_⟩
      rw [show Value.field? fields part = some inner from hfield] at hobject
      exact hobject
    have hrefused := setField_misfit hclosed key x
    change (do
      let inner ← setField ((Value.field? fields part).getD (.object [])) key x
      (part :: twins part).foldlM (fun v name => setField v name inner) (Value.object fields)) = _
    rw [hrefused]
    rfl
  | _ => exact ⟨.noMember, rfl, Or.inr rfl⟩

theorem setPageSize_open (hv : v.IsObject) (hyields : Yields (v.part? "indexer")) (x : Value) :
    ∃ w inner, setPageSize v x = .ok w ∧ inner.part? "page_size" = some x ∧
      ∀ name, w.part? name = if name = "indexer" then some inner else v.part? name := by
  obtain ⟨fields, rfl⟩ := hv
  have hobject :
      (((Value.field? fields "indexer").getD .null).orElse (.object [])).IsObject := by
    cases hfield : Value.field? fields "indexer" with
    | none => exact ⟨[], rfl⟩
    | some inner =>
      change (if inner.truthy then inner else .object []).IsObject
      split
      · rename_i htruthy
        exact hyields inner hfield htruthy
      · exact ⟨[], rfl⟩
  obtain ⟨inner, hinner, -, hkeys⟩ := setField_object hobject "page_size" x
  obtain ⟨w, hw, -, hparts⟩ := setField_object ⟨fields, rfl⟩ "indexer" inner
  refine ⟨w, inner, ?_, by rw [hkeys, if_pos rfl], hparts⟩
  exact (bind_of_ok hinner _).trans hw

theorem setPageSize_misfit (h : ¬(v.IsObject ∧ Yields (v.part? "indexer"))) (x : Value) :
    ∃ f, setPageSize v x = .error f ∧ IsMisfit f := by
  cases v with
  | object fields =>
    refine ⟨.wrongType, ?_, Or.inl rfl⟩
    have hclosed :
        ¬(((Value.field? fields "indexer").getD .null).orElse (.object [])).IsObject := by
      intro hobject
      refine h ⟨⟨fields, rfl⟩, fun inner hfield htruthy => ?_⟩
      rw [show Value.field? fields "indexer" = some inner from hfield] at hobject
      rwa [Option.getD_some, Value.orElse, if_pos htruthy] at hobject
    have hrefused := setField_misfit hclosed "page_size" x
    change (do
      let inner ← setField (((Value.field? fields "indexer").getD .null).orElse (.object []))
        "page_size" x
      setField (Value.object fields) "indexer" inner) = _
    rw [hrefused]
    rfl
  | _ => exact ⟨.noMember, rfl, Or.inr rfl⟩

/-! ### One variable after the other -/

/-- The parts that variables are put into under a key of their own. -/
def sections : List String := ["rpc", "push"]

/-- The names that are set as a whole. -/
def plainNames : List String := ["contract_address", "network"]

/-- The twins of parts, among which no name stands that is set as a whole. -/
structure Classes (env : Environment) (twins : String → List String) : Prop where
  meets : ∀ p ∈ sections, ∀ q ∈ sections, ∀ t, t ∈ p :: twins p → t ∈ q :: twins q →
    ∀ u ∈ q :: twins q, u ∈ p :: twins p
  contract : (setting? env "CONTRACT_ADDRESS").isSome → ∀ p, "contract_address" ∉ twins p
  network : (setting? env "INDEXER_NETWORK").isSome → ∀ p, "network" ∉ twins p

/-- One value has come from another one by variables that were put in: twins are the same still, and
what is not the same as before is open and was open then. -/
structure Reworked (twins : String → List String) (v₀ v : Value) : Prop where
  object : v.IsObject ↔ v₀.IsObject
  tied : ∀ p ∈ sections, ∀ t ∈ twins p, v.part? t = v.part? p
  kept : ∀ name ∉ plainNames, v.part? name = v₀.part? name ∨
    (Opens (v.part? name) ∧ Opens (v₀.part? name))

/-- What becomes of a step: it succeeds under a condition, with a result of some kind, and is refused
for a wrong shape otherwise. -/
def Goes (x : Except Fault Value) (condition : Prop) (P : Value → Prop) : Prop :=
  (∃ w, x = .ok w ∧ condition ∧ P w) ∨ (∃ f, x = .error f ∧ IsMisfit f ∧ ¬condition)

theorem Goes.bind {x : Except Fault Value} {f : Value → Except Fault Value} {C D : Prop}
    {P Q : Value → Prop} (hx : Goes x C P) (hf : ∀ w, P w → Goes (f w) D Q) :
    Goes (x >>= f) (C ∧ D) Q := by
  rcases hx with ⟨w, rfl, hC, hw⟩ | ⟨e, rfl, he, hC⟩
  · rcases hf w hw with ⟨w', hw', hD, hQ⟩ | ⟨e, he, hmisfit, hD⟩
    · exact Or.inl ⟨w', hw', ⟨hC, hD⟩, hQ⟩
    · exact Or.inr ⟨e, he, hmisfit, fun h => hD h.2⟩
  · exact Or.inr ⟨e, rfl, he, fun h => hC h.1⟩

theorem Opens.yields {inner? : Option Value} (h : Opens inner?) : Yields inner? :=
  fun x hx _ => h x hx

theorem Goes.mono {x : Except Fault Value} {C : Prop} {P Q : Value → Prop} (hx : Goes x C P)
    (hPQ : ∀ w, P w → Q w) : Goes x C Q :=
  hx.imp_left fun ⟨w, hw, hC, hP⟩ => ⟨w, hw, hC, hPQ w hP⟩

theorem Reworked.opens_iff (h : Reworked twins v₀ v) {name : String} (hname : name ∉ plainNames) :
    Opens (v.part? name) ↔ Opens (v₀.part? name) := by
  rcases h.kept name hname with hsame | ⟨hnow, hthen⟩
  · rw [hsame]
  · exact iff_of_true hnow hthen

theorem Reworked.yields_iff (h : Reworked twins v₀ v) {name : String} (hname : name ∉ plainNames) :
    Yields (v.part? name) ↔ Yields (v₀.part? name) := by
  rcases h.kept name hname with hsame | ⟨hnow, hthen⟩
  · rw [hsame]
  · exact iff_of_true hnow.yields hthen.yields

theorem override_of_setting {name s : String} {set : Value → Value → Except Fault Value}
    (h : setting? env name = some s) : override env name set v = set v (.text s) := by
  obtain ⟨hs, hne⟩ := Option.filter_eq_some_iff.mp h
  unfold override
  rw [hs]
  exact if_neg (by simpa using hne)

theorem override_of_none {name : String} {set : Value → Value → Except Fault Value}
    (h : setting? env name = none) : override env name set v = .ok v := by
  unfold override
  cases hs : env name with
  | none => rfl
  | some s =>
    rw [setting?, hs] at h
    have hempty : s.isEmpty = true := by simpa using Option.filter_eq_none_iff.mp h s rfl
    exact if_pos hempty

theorem reworked_section (hc : Classes env twins) (h : Reworked twins v₀ v) (hpart : part ∈ sections)
    (hobject : v₀.IsObject) (hopen : Opens (v₀.part? part)) (x : Value) :
    ∃ w, setInSection twins v part key x = .ok w ∧ Reworked twins v₀ w ∧
      ∀ name k, w.nested? name k =
        if name ∈ part :: twins part ∧ k = key then some x else v.nested? name k := by
  have hplain : ∀ q ∈ sections, q ∉ plainNames := by decide
  have hnow : Opens (v.part? part) := (h.opens_iff (hplain part hpart)).mpr hopen
  have hsame : ∀ name ∈ part :: twins part, v.part? name = v.part? part := fun name hname => by
    rcases List.mem_cons.mp hname with rfl | hname
    · rfl
    · exact h.tied part hpart name hname
  obtain ⟨w, inner, hw, hwobject, hinner, hkeys, hparts⟩ :=
    setInSection_open (h.object.mpr hobject) hnow x
  refine ⟨w, hw, ⟨iff_of_true hwobject hobject, fun q hq t ht => ?_, fun name hname => ?_⟩,
    fun name k => ?_⟩
  · -- a class of names is changed as a whole or not at all
    have hclass : t ∈ part :: twins part ↔ q ∈ part :: twins part := by
      constructor
      · intro htp
        exact hc.meets part hpart q hq t htp (List.mem_cons_of_mem _ ht) q List.mem_cons_self
      · intro hqp
        exact hc.meets part hpart q hq q hqp List.mem_cons_self t (List.mem_cons_of_mem _ ht)
    rw [hparts, hparts, h.tied q hq t ht]
    simp only [hclass]
  · rw [hparts]
    split
    · rename_i hmem
      refine Or.inr ⟨fun y hy => by rwa [← Option.some.inj hy], ?_⟩
      have hopenNow : Opens (v.part? name) := by rwa [hsame name hmem]
      exact (h.opens_iff hname).mp hopenNow
    · exact h.kept name hname
  · rw [Value.nested?, hparts]
    by_cases hmem : name ∈ part :: twins part
    · rw [if_pos hmem, Option.bind_some, hkeys, Value.nested?, Value.nested?, hsame name hmem]
      simp only [hmem, true_and]
    · simp only [hmem, if_false, false_and]
      rfl

theorem override_section (hc : Classes env twins) (h : Reworked twins v₀ v)
    (hpart : part ∈ sections) (name : String) :
    Goes (override env name (setInSection twins · part key) v)
      ((setting? env name).isSome → v₀.IsObject ∧ Opens (v₀.part? part)) fun w =>
        Reworked twins v₀ w ∧ ∀ p k, w.nested? p k =
          (if p ∈ part :: twins part ∧ k = key then (setting? env name).map .text else none).or
            (v.nested? p k) := by
  have hplain : ∀ q ∈ sections, q ∉ plainNames := by decide
  cases hs : setting? env name with
  | none =>
    refine Or.inl ⟨v, override_of_none hs, fun hsome => by simp at hsome, h, fun p k => ?_⟩
    simp
  | some s =>
    rw [override_of_setting hs]
    by_cases hopen : v₀.IsObject ∧ Opens (v₀.part? part)
    · obtain ⟨w, hw, hre, hentries⟩ := reworked_section hc h hpart hopen.1 hopen.2 (.text s)
      refine Or.inl ⟨w, hw, fun _ => hopen, hre, fun p k => ?_⟩
      rw [hentries]
      split <;> rfl
    · have hnow : ¬(v.IsObject ∧ Opens (v.part? part)) := by
        rwa [h.object, h.opens_iff (hplain part hpart)]
      obtain ⟨f, hf, hmisfit⟩ := setInSection_misfit hnow (.text s)
      exact Or.inr ⟨f, hf, hmisfit, fun hgoes => hopen (hgoes rfl)⟩

theorem override_field (h : Reworked twins v₀ v) (hkey : key ∈ plainNames) (name : String)
    (hown : (setting? env name).isSome → ∀ p, key ∉ twins p) :
    Goes (override env name (setField · key) v) ((setting? env name).isSome → v₀.IsObject) fun w =>
      Reworked twins v₀ w ∧ ∀ p ∉ plainNames, ∀ k, w.nested? p k = v.nested? p k := by
  have hne : ∀ p ∉ plainNames, p ≠ key := fun p hp hpk => hp (hpk ▸ hkey)
  have hplain : ∀ q ∈ sections, q ∉ plainNames := by decide
  cases hs : setting? env name with
  | none =>
    exact Or.inl ⟨v, override_of_none hs, fun hsome => by simp at hsome, h, fun p _ k => rfl⟩
  | some s =>
    rw [override_of_setting hs]
    by_cases hobject : v₀.IsObject
    · obtain ⟨w, hw, hwobject, hparts⟩ := setField_object (h.object.mpr hobject) key (.text s)
      have hkept : ∀ p, p ≠ key → w.part? p = v.part? p := fun p hp => by
        rw [hparts, if_neg hp]
      refine Or.inl ⟨w, hw, fun _ => hobject, ⟨iff_of_true hwobject hobject, fun p hp t ht => ?_,
        fun p hp => ?_⟩, fun p hp k => ?_⟩
      · have htk : t ≠ key := fun htk => hown (by simp [hs]) p (htk ▸ ht)
        rw [hkept t htk, hkept p (hne p (hplain p hp)), h.tied p hp t ht]
      · rw [hkept p (hne p hp)]
        exact h.kept p hp
      · rw [Value.nested?, hkept p (hne p hp)]
        rfl
    · refine Or.inr ⟨.wrongType, setField_misfit (fun hv => hobject (h.object.mp hv)) _ _,
        Or.inl rfl, fun hgoes => hobject (hgoes rfl)⟩

/-- The last step of all: the size of a page. -/
theorem override_pageSize (h : Reworked twins v₀ v) :
    Goes (match env "INDEXER_PAGE_SIZE" with
        | some s => setPageSize v (.text s)
        | none => .ok v)
      ((env "INDEXER_PAGE_SIZE").isSome → v₀.IsObject ∧ Yields (v₀.part? "indexer")) fun w =>
        (∀ k, w.nested? "push" k = v.nested? "push" k) ∧
        w.nested? "indexer" "page_size" =
          ((env "INDEXER_PAGE_SIZE").map .text).or (v.nested? "indexer" "page_size") := by
  have hindexer : "indexer" ∉ plainNames := by decide
  cases hs : env "INDEXER_PAGE_SIZE" with
  | none => exact Or.inl ⟨v, rfl, fun hsome => by simp at hsome, fun k => rfl, rfl⟩
  | some s =>
    by_cases hopen : v₀.IsObject ∧ Yields (v₀.part? "indexer")
    · obtain ⟨w, inner, hw, hinner, hparts⟩ := setPageSize_open (h.object.mpr hopen.1)
        ((h.yields_iff hindexer).mpr hopen.2) (.text s)
      refine Or.inl ⟨w, hw, fun _ => hopen, fun k => ?_, ?_⟩
      · rw [Value.nested?, hparts, if_neg (by decide)]
        rfl
      · rw [Value.nested?, hparts, if_pos rfl]
        exact hinner
    · have hnow : ¬(v.IsObject ∧ Yields (v.part? "indexer")) := by
        rwa [h.object, h.yields_iff hindexer]
      obtain ⟨f, hf, hmisfit⟩ := setPageSize_misfit hnow (.text s)
      exact Or.inr ⟨f, hf, hmisfit, fun hgoes => hopen (hgoes rfl)⟩

/-! ### All variables -/

/-- The variables of an environment can be put into a document. -/
@[mk_iff]
structure Fits (env : Environment) (v : Value) : Prop where
  nodeUrl : (setting? env "RPC_URL_OVERRIDE").isSome → v.IsObject ∧ Opens (v.part? "rpc")
  nodeToken : (setting? env "RPC_API_TOKEN").isSome → v.IsObject ∧ Opens (v.part? "rpc")
  contract : (setting? env "CONTRACT_ADDRESS").isSome → v.IsObject
  network : (setting? env "INDEXER_NETWORK").isSome → v.IsObject
  deliveryUrl : (setting? env "PUSH_URL").isSome → v.IsObject ∧ Opens (v.part? "push")
  pageSize : (env "INDEXER_PAGE_SIZE").isSome → v.IsObject ∧ Yields (v.part? "indexer")

/-- The address for deliveries that is in force: the one that the environment sets, also by way of
the address of the node if both parts are one, or else the one of the document. -/
def deliveryUrl? (env : Environment) (d : Yaml.Document) : Option Value :=
  let own := setting? env "PUSH_URL"
  let shared := if "push" ∈ d.twins "rpc" then setting? env "RPC_URL_OVERRIDE" else none
  ((own.or shared).map .text).or (d.value.nested? "push" "url")

/-- The size of a page that is in force: the variable of the environment if it is there, or else what
the document has. -/
def pageSize? (env : Environment) (d : Yaml.Document) : Option Value :=
  ((env "INDEXER_PAGE_SIZE").map .text).or (d.value.nested? "indexer" "page_size")

theorem isSet_eq (env : Environment) (name : String) :
    isSet env name = (setting? env name).isSome := by
  unfold isSet setting?
  cases env name with
  | none => rfl
  | some s => cases hs : s.isEmpty <;> simp [hs]

/-- The names that are left as twins. -/
def Remains (env : Environment) (t : String) : Prop :=
  (t = "contract_address" → (setting? env "CONTRACT_ADDRESS").isSome = false) ∧
    (t = "network" → (setting? env "INDEXER_NETWORK").isSome = false)

theorem mem_partTwins_iff {d : Yaml.Document} {p t : String} :
    t ∈ partTwins env d p ↔ t ∈ d.twins p ∧ Remains env t := by
  rw [partTwins, List.mem_filter, isSet_eq, isSet_eq, Remains]
  simp only [Bool.and_eq_true, Bool.not_eq_true', Bool.and_eq_false_imp, beq_iff_eq]

theorem classes_partTwins {d : Yaml.Document} (hd : d.Shares) (env : Environment) :
    Classes env (partTwins env d) := by
  have hremains : ∀ q ∈ sections, Remains env q := by
    intro q hq
    have hplain : ∀ q ∈ sections, q ≠ "contract_address" ∧ q ≠ "network" := by decide
    exact ⟨fun h => absurd h (hplain q hq).1, fun h => absurd h (hplain q hq).2⟩
  have hclass : ∀ p t, t ∈ p :: partTwins env d p → t ∈ p :: d.twins p := by
    intro p t ht
    rcases List.mem_cons.mp ht with rfl | ht
    · exact List.mem_cons_self
    · exact List.mem_cons_of_mem _ (mem_partTwins_iff.mp ht).1
  refine ⟨fun p hp q hq t htp htq u hu => ?_, fun h p ht => ?_, fun h p ht => ?_⟩
  · rcases List.mem_cons.mp (hd.meets (hclass p t htp) (hclass q t htq) u (hclass q u hu)) with
      rfl | hup
    · exact List.mem_cons_self
    · refine List.mem_cons_of_mem _ (mem_partTwins_iff.mpr ⟨hup, ?_⟩)
      rcases List.mem_cons.mp hu with rfl | hu
      · exact hremains u hq
      · exact (mem_partTwins_iff.mp hu).2
  · rw [(mem_partTwins_iff.mp ht).2.1 rfl] at h
    cases h
  · rw [(mem_partTwins_iff.mp ht).2.2 rfl] at h
    cases h

theorem reworked_start {d : Yaml.Document} (hd : d.Shares) (env : Environment) :
    Reworked (partTwins env d) (d.value.orElse (.object [])) (d.value.orElse (.object [])) := by
  refine ⟨Iff.rfl, fun p _ t ht => ?_, fun _ _ => Or.inl rfl⟩
  rw [Value.part?_orElse, Value.part?_orElse]
  exact hd.same (mem_partTwins_iff.mp ht).1

theorem push_mem_class_iff {d : Yaml.Document} :
    "push" ∈ "rpc" :: partTwins env d "rpc" ↔ "push" ∈ d.twins "rpc" := by
  rw [List.mem_cons, mem_partTwins_iff]
  simp [Remains]

/-- The variables of an environment are put into a document if they fit. -/
theorem overrideAll_cases {d : Yaml.Document} (hd : d.Shares) (env : Environment) :
    Goes (overrideAll env d) (Fits env (d.value.orElse (.object []))) fun w =>
      w.nested? "push" "url" = deliveryUrl? env d ∧
        w.nested? "indexer" "page_size" = pageSize? env d := by
  have hc := classes_partTwins hd env
  have hrpc : "rpc" ∈ sections := by decide
  have hpush : "push" ∈ sections := by decide
  have hplain : "push" ∉ plainNames ∧ "indexer" ∉ plainNames := by decide
  rw [fits_iff]
  unfold overrideAll
  dsimp only
  refine (override_section hc (reworked_start hd env) hrpc "RPC_URL_OVERRIDE").bind
    fun v₁ ⟨h₁, e₁⟩ => ?_
  refine (override_section hc h₁ hrpc "RPC_API_TOKEN").bind fun v₂ ⟨h₂, e₂⟩ => ?_
  refine (override_field h₂ (by decide) "CONTRACT_ADDRESS" hc.contract).bind fun v₃ ⟨h₃, e₃⟩ => ?_
  refine (override_field h₃ (by decide) "INDEXER_NETWORK" hc.network).bind fun v₄ ⟨h₄, e₄⟩ => ?_
  refine (override_section hc h₄ hpush "PUSH_URL").bind fun v₅ ⟨h₅, e₅⟩ => ?_
  refine (override_pageSize h₅).mono fun w ⟨hurl, hsize⟩ => ⟨?_, ?_⟩
  · rw [hurl, e₅, e₄ _ hplain.1, e₃ _ hplain.1, e₂, e₁, Value.nested?_orElse, deliveryUrl?]
    by_cases hone : "push" ∈ d.twins "rpc"
    · rw [if_pos hone, if_pos ⟨List.mem_cons_self, rfl⟩, if_neg (fun h => absurd h.2 (by decide)),
        if_pos ⟨push_mem_class_iff.mpr hone, rfl⟩, Option.map_or, Option.none_or, Option.or_assoc]
    · rw [if_neg hone, if_pos ⟨List.mem_cons_self, rfl⟩, if_neg (fun h => absurd h.2 (by decide)),
        if_neg (fun h => hone (push_mem_class_iff.mp h.1)), Option.or_none, Option.none_or,
        Option.none_or]
  · rw [hsize, e₅, e₄ _ hplain.2, e₃ _ hplain.2, e₂, e₁, Value.nested?_orElse, pageSize?]
    simp

/-- A document into which all variables were put has the address for deliveries and the size of a
page that are in force. -/
theorem overrideAll_ok {d : Yaml.Document} (hd : d.Shares) {w : Value}
    (h : overrideAll env d = .ok w) :
    w.nested? "push" "url" = deliveryUrl? env d ∧
      w.nested? "indexer" "page_size" = pageSize? env d := by
  rcases overrideAll_cases hd env with ⟨w', hw', -, hentries⟩ | ⟨f, hf, -⟩
  · obtain rfl := Except.ok.inj (h.symm.trans hw')
    exact hentries
  · rw [h] at hf
    cases hf

end Settings

end ChainIndexer
