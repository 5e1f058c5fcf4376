import ChainIndexer.CommandLine
import ChainIndexer.Proofs.Settings.Override

/-!
Which failures there are to load settings. A document that does not validate is a failure of the
configuration, which the command line reports. So is not a file that cannot be read as a document,
nor one with a part of the wrong shape for a variable of the environment: these leave as they are
(`Flaw`). There are no others, so the loading of a file goes as it should just if the file is without
flaws for the environment (`load_settled_iff`).
-/

namespace ChainIndexer.Settings

open Act

/-- How loading fails for a file with some bytes other than by a failure of the configuration: they
are no text; the text is no document, for another reason than its depth; or the variables of the
environment do not fit the document. -/
inductive Flaw (env : Environment) (bs : Bytes) : Failure → Prop where
  | notText (h : Text.decode? bs = none) : Flaw env bs (.fault .notUtf8)
  | notDocument {s : String} {p : Yaml.Problem} (htext : Text.decode? bs = some s)
    (h : Yaml.Document.read s = .error p) (hdepth : p ≠ .tooDeep) : Flaw env bs (.document p)
  | misfit {s : String} {d : Yaml.Document} {f : Fault} (htext : Text.decode? bs = some s)
    (h : Yaml.Document.read s = .ok d) (hmisfit : ¬Fits env (d.value.orElse (.object [])))
    (hf : IsMisfit f) : Flaw env bs (.fault f)

/-- There are settings, or a failure at run time that the command line reports. -/
def Settled (r : Except Failure Settings) : Prop :=
  ∀ e, r = .error e → e.kind.isRuntime = true ∧ CommandLine.isReported e.kind = true

/-- A flaw is no failure at run time, and it is reported only as a bad value. -/
theorem Flaw.unsettled {env : Environment} {bs : Bytes} {e : Failure} (h : Flaw env bs e) :
    e.kind.isRuntime = false ∧ CommandLine.isReported e.kind = e.kind.isBadValue := by
  cases h with
  | notText => exact ⟨rfl, rfl⟩
  | notDocument _ _ hdepth =>
    rename_i p _ _
    cases p with
    | tooDeep => exact absurd rfl hdepth
    | _ => exact ⟨rfl, rfl⟩
  | misfit _ _ _ hf =>
    rcases hf with rfl | rfl
    · exact ⟨rfl, rfl⟩
    · exact ⟨rfl, rfl⟩

theorem settled_of_runtime {e : Failure} (h : e.kind.isRuntime = true) :
    Settled (.error e) := by
  intro e' he
  obtain rfl := Except.error.inj he
  exact ⟨h, by simp [CommandLine.isReported, h]⟩

/-- Settings out of a document: the document does not fit the environment, or there are settings, or
a failure of the configuration that lists what is wrong. -/
theorem ofDocument_cases {d : Yaml.Document} (hd : d.Shares) (path : String) (env : Environment) :
    (¬Fits env (d.value.orElse (.object [])) ∧
      ∃ f, ofDocument path env d = .error (.fault f) ∧ IsMisfit f) ∨
    (Fits env (d.value.orElse (.object [])) ∧ ∃ w, overrideAll env d = .ok w ∧
      ofDocument path env d = (ofValue w).mapError (.configuration path)) := by
  rcases overrideAll_cases hd env with ⟨w, hw, hfits, -⟩ | ⟨f, hf, hmisfit, hfits⟩
  · refine Or.inr ⟨hfits, w, hw, ?_⟩
    rw [ofDocument, hw]
    rfl
  · refine Or.inl ⟨hfits, f, ?_, hmisfit⟩
    rw [ofDocument, hf]
    rfl

theorem settled_configuration {path : String} {x : Except Failure Settings} :
    Settled (x.mapError (.configuration path)) := by
  intro e he
  obtain ⟨cause, -, rfl⟩ := mapError_error he
  exact ⟨rfl, rfl⟩

/-- What loading comes to, given the bytes of the file. -/
def loaded (path : String) (env : Environment) (bs : Bytes) : Except Failure Settings :=
  match Text.decode? bs with
  | none => .error (.fault .notUtf8)
  | some text =>
    ((Yaml.Document.read text).mapError Failure.document).bind (ofDocument path env)

/-- Settings come from a document whose parts are as they are in force. -/
theorem loaded_ok {path : String} {env : Environment} {bs : Bytes} {s : Settings}
    (h : loaded path env bs = .ok s) :
    ∃ text d w, Text.decode? bs = some text ∧ Yaml.Document.read text = .ok d ∧
      w.nested? "push" "url" = deliveryUrl? env d ∧
      w.nested? "indexer" "page_size" = pageSize? env d ∧ ofValue w = .ok s := by
  unfold loaded at h
  split at h
  · cases h
  · rename_i text htext
    obtain ⟨d, hdocument, hsettings⟩ := bind_ok h
    obtain ⟨w, hw, hvalue⟩ := bind_ok hsettings
    have hread := mapError_ok_iff.mp hdocument
    obtain ⟨hurl, hsize⟩ := overrideAll_ok (Yaml.Document.read_shares hread) (liftFault_ok_iff.mp hw)
    exact ⟨text, d, w, htext, hread, hurl, hsize, mapError_ok_iff.mp hvalue⟩

/-- Loading goes as it should, or it fails by a flaw. -/
theorem loaded_cases (path : String) (env : Environment) (bs : Bytes) :
    (Settled (loaded path env bs) ∧ ∀ e, ¬Flaw env bs e) ∨
      ∃ e, loaded path env bs = .error e ∧ Flaw env bs e := by
  cases htext : Text.decode? bs with
  | none => exact Or.inr ⟨_, by rw [loaded, htext], .notText htext⟩
  | some text =>
    have hloaded : loaded path env bs =
        ((Yaml.Document.read text).mapError Failure.document).bind (ofDocument path env) := by
      rw [loaded, htext]
    rw [hloaded]
    cases hread : Yaml.Document.read text with
    | error p =>
      by_cases hdepth : p = .tooDeep
      · subst hdepth
        refine Or.inl ⟨settled_of_runtime rfl, fun e he => ?_⟩
        cases he with
        | notText h => simp [htext] at h
        | notDocument hs h hne => simp_all
        | misfit hs h => simp_all
      · exact Or.inr ⟨_, rfl, .notDocument htext hread hdepth⟩
    | ok d =>
      rcases ofDocument_cases (Yaml.Document.read_shares hread) path env with
        ⟨hfits, f, hf, hmisfit⟩ | ⟨hfits, w, -, hdocument⟩
      · exact Or.inr ⟨_, hf, .misfit htext hread hfits hmisfit⟩
      · refine Or.inl ⟨?_, fun e he => ?_⟩
        · change Settled (ofDocument path env d)
          rw [hdocument]
          exact settled_configuration
        · cases he with
          | notText h => simp [htext] at h
          | notDocument hs h => simp_all
          | misfit hs h hunfit => simp_all

section Loading

variable {n : Type → Type} [Monad n] {σ : Type} [Threaded n σ]

theorem exec_load {disk : Disk n} {path : String} {s s' : σ} {bs : Bytes}
    (hread : exec (disk.read path) s = (.ok bs, s')) (env : Environment) :
    exec (load (documents disk) env path) s = (loaded path env bs, s') := by
  unfold load documents loaded
  rw [exec_bind, exec_bind_of_ok hread]
  cases Text.decode? bs with
  | none =>
    dsimp only
    rw [exec_throw]
  | some text =>
    dsimp only
    rw [exec_lift]
    cases Yaml.Document.read text with
    | error p => rfl
    | ok d => exact exec_lift _ _

/-- Settings that were loaded are those of the bytes of the file. -/
theorem load_ok {disk : Disk n} {env : Environment} {path : String} {s s' : σ} {st : Settings}
    (h : exec (load (documents disk) env path) s = (.ok st, s')) :
    ∃ bs, exec (disk.read path) s = (.ok bs, s') ∧ loaded path env bs = .ok st := by
  obtain ⟨d, s₁, hdocument, -⟩ := exec_bind_ok h
  obtain ⟨bs, s₂, hread, -⟩ := exec_bind_ok hdocument
  rw [exec_load hread] at h
  obtain ⟨hloaded, rfl⟩ := Prod.mk.inj h
  exact ⟨bs, hread, hloaded⟩

/-- A file whose bytes can be had is loaded as it should be just if it has no flaw for the
environment: there are settings, or a failure at run time that is reported. With a flaw there are no
settings, but a failure that is none at run time and that is reported, if at all, as a bad value. -/
theorem load_settled_iff {disk : Disk n} {path : String} {s s' : σ} {bs : Bytes}
    (hread : exec (disk.read path) s = (.ok bs, s')) (env : Environment) :
    ∃ r, exec (load (documents disk) env path) s = (r, s') ∧
      (Settled r ↔ ∀ e, ¬Flaw env bs e) ∧
      ∀ e, Flaw env bs e → ∃ e', r = .error e' ∧ Flaw env bs e' ∧ e'.kind.isRuntime = false ∧
        CommandLine.isReported e'.kind = e'.kind.isBadValue := by
  refine ⟨loaded path env bs, exec_load hread env, ?_⟩
  rcases loaded_cases path env bs with ⟨hsettled, hsound⟩ | ⟨e, he, hflaw⟩
  · exact ⟨iff_of_true hsettled hsound, fun e hflaw => absurd hflaw (hsound e)⟩
  · refine ⟨iff_of_false (fun hsettled => ?_) fun hsound => hsound e hflaw,
      fun _ _ => ⟨e, he, hflaw, hflaw.unsettled⟩⟩
    have hruntime := (hsettled e he).1
    rw [hflaw.unsettled.1] at hruntime
    cases hruntime

end Loading

/-- A file in which the part of the node is empty, for an environment that sets the address of the
node. -/
def emptyPart : String := "contract_address: '0x2947f98c42597966a0ec25e92843c09ac18fbab7'\nrpc:\n"

def nodeEnvironment : Environment := fun name =>
  if name = "RPC_URL_OVERRIDE" then some "https://node" else none

/-- A disk with one file, under every name. -/
def oneFile (bs : Bytes) : Disk (StateM Unit) where
  isThere _ := pure true
  read _ := pure bs
  create _ := pure ()
  append _ _ := pure ()
  replace _ _ := pure ()
  makeDirectory _ := pure ()

theorem emptyPart_flaw :
    Flaw nodeEnvironment (Text.encode emptyPart) (.fault .wrongType) := by
  have hnull : (Yaml.Document.read emptyPart).toOption.map
      (fun d => (d.value.part? "rpc").map Value.isNull) = some (some true) := by
    decide +kernel
  obtain ⟨d, hread, hd⟩ := Option.map_eq_some_iff.mp hnull
  obtain ⟨part, hpart, hisNull⟩ := Option.map_eq_some_iff.mp hd
  refine .misfit (Text.decode?_encode _) (ok_of_toOption hread) (fun hfits => ?_) (Or.inl rfl)
  obtain ⟨-, hopen⟩ := hfits.nodeUrl (by decide)
  rw [Value.part?_orElse] at hopen
  obtain ⟨fields, rfl⟩ := hopen part hpart
  cases hisNull

theorem emptyPart_unsettled :
    ∃ r, exec (load (documents (oneFile (Text.encode emptyPart))) nodeEnvironment "config.yaml") () =
        (r, ()) ∧
      ¬Settled r ∧ ∃ e, r = .error e ∧ e.kind.isRuntime = false ∧
        CommandLine.isReported e.kind = e.kind.isBadValue := by
  have hbytes : exec ((oneFile (Text.encode emptyPart)).read "config.yaml") () =
      (.ok (Text.encode emptyPart), ()) := rfl
  obtain ⟨r, hr, hsettled, hflaws⟩ := load_settled_iff hbytes nodeEnvironment
  obtain ⟨e, he, -, hkind⟩ := hflaws _ emptyPart_flaw
  exact ⟨r, hr, fun h => hsettled.mp h _ emptyPart_flaw, e, he, hkind⟩

end ChainIndexer.Settings
