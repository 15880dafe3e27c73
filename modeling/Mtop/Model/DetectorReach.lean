import Mtop.Model.WorkloadTotals
import Mathlib.Data.List.TakeWhile

/-! What is left to a rule of the detector by the rules before it. -/
namespace Mtop
open Cxx
set_option autoImplicit false

/-! ## Words -/

theorem toLower_of_isSpace {c : Char} (h : isSpace c = true) : c.toLower = c := by
  simp only [isSpace, Bool.or_eq_true, beq_iff_eq] at h
  rcases h with ((((rfl | rfl) | rfl) | rfl) | rfl) | rfl <;> rfl

/-- The end of `split_words`. -/
def finishWords (acc : List Text × Text) : List Text :=
  if acc.2 = [] then acc.1 else acc.1 ++ [acc.2]

/-- No word is lost. -/
theorem subset_finishWords (text : Text) (acc : List Text × Text) :
    ∀ word ∈ acc.1, word ∈ finishWords (text.foldl splitWordsStep acc) := by
  induction text generalizing acc with
  | nil =>
    intro word hword
    unfold finishWords
    rw [List.foldl_nil]
    split
    · exact hword
    · exact List.mem_append_left _ hword
  | cons c text ih =>
    intro word hword
    rw [List.foldl_cons]
    refine ih _ word ?_
    unfold splitWordsStep
    split
    · split
      · exact hword
      · exact List.mem_append_left _ hword
    · exact hword

section Needle
variable {needle : Text} (hne : needle ≠ []) (hspace : ∀ c ∈ needle, isSpace c = false)
include hne hspace

/-- What is found in the text still to be split lands in one of the words. -/
theorem exists_word_of_infix (text : Text) (acc : List Text × Text)
    (h : needle <:+: lowercase (acc.2 ++ text)) :
    ∃ word ∈ finishWords (text.foldl splitWordsStep acc), needle <:+: lowercase word := by
  induction text generalizing acc with
  | nil =>
    rw [List.append_nil] at h
    refine ⟨acc.2, ?_, h⟩
    have hcurrent : acc.2 ≠ [] := fun hnil => by
      rw [hnil] at h
      exact hne (List.eq_nil_of_infix_nil h)
    unfold finishWords
    rw [List.foldl_nil, if_neg hcurrent]
    exact List.mem_append_right _ List.mem_cons_self
  | cons c text ih =>
    rw [List.foldl_cons]
    by_cases hc : isSpace c = true
    · -- The needle has no space, so it lies in the finished word or behind it.
      have hout : c ∉ needle := fun hmem => Bool.false_ne_true ((hspace c hmem).symm.trans hc)
      unfold lowercase at h
      rw [List.map_append, List.map_cons, toLower_of_isSpace hc, infix_append_cons_iff hout] at h
      have hstep : splitWordsStep acc c =
          if acc.2 = [] then acc else (acc.1 ++ [acc.2], []) := if_pos hc
      rw [hstep]
      split
      · rename_i hempty
        refine ih acc ?_
        rw [hempty] at h ⊢
        exact h.elim (fun hnil => absurd (List.eq_nil_of_infix_nil hnil) hne) id
      · rcases h with hword | hrest
        · refine ⟨acc.2, subset_finishWords _ _ _ ?_, hword⟩
          exact List.mem_append_right _ List.mem_cons_self
        · exact ih _ hrest
    · have hstep : splitWordsStep acc c = (acc.1, acc.2 ++ [c]) := if_neg hc
      rw [hstep]
      refine ih _ ?_
      rwa [List.append_assoc]

theorem splitWords_infix {text : Text} (h : contains (lowercase text) needle = true) :
    ∃ word ∈ splitWords text, contains (lowercase word) needle = true := by
  obtain ⟨word, hword, hfound⟩ := exists_word_of_infix hne hspace text ([], []) (of_decide_eq_true h)
  exact ⟨word, hword, decide_eq_true hfound⟩

end Needle

/-! ## The last component -/

def isSeparator (c : Char) : Bool := c = '/' || c = '\\'

/-- `hint` is the part of `path` behind its last separator. -/
def LastComponent (path hint : Text) : Prop :=
  (∀ c ∈ hint, isSeparator c = false) ∧
    ∃ folder, path = folder ++ hint ∧ ∀ c ∈ folder.getLast?, isSeparator c = true

theorem contains_separators (c : Char) : ['/', '\\'].contains c = isSeparator c := by
  unfold isSeparator
  rw [List.contains_cons, List.contains_cons, List.contains_nil, Bool.or_false]
  rfl

theorem basenameLike_eq (path : Text) :
    basenameLike path = (path.reverse.takeWhile fun c => !isSeparator c).reverse := by
  unfold basenameLike afterLastOf
  simp only [contains_separators]

theorem basenameLike_lastComponent (path : Text) : LastComponent path (basenameLike path) := by
  rw [basenameLike_eq]
  refine ⟨fun c hc => ?_, (path.reverse.dropWhile fun c => !isSeparator c).reverse, ?_, ?_⟩
  · have := List.mem_takeWhile_imp (List.mem_reverse.mp hc)
    rwa [Bool.not_eq_true'] at this
  · rw [← List.reverse_append, List.takeWhile_append_dropWhile, List.reverse_reverse]
  · intro c hc
    rw [List.getLast?_reverse] at hc
    have hhead := List.head?_dropWhile_not (fun c => !isSeparator c) path.reverse
    rw [Option.mem_def.mp hc] at hhead
    simpa using hhead

/-- The last component is empty exactly behind a separator at the end. -/
theorem basenameLike_ne_nil {word : Text} (hword : word ≠ []) :
    basenameLike word ≠ [] ↔ ∀ c ∈ word.getLast?, isSeparator c = false := by
  obtain ⟨start, last, rfl⟩ := (List.eq_nil_or_concat word).resolve_left hword
  rw [basenameLike_eq, Ne, List.reverse_eq_nil_iff, List.concat_eq_append, List.reverse_append,
    List.reverse_singleton, List.singleton_append, List.takeWhile_cons, List.getLast?_concat]
  cases hlast : isSeparator last with
  | true => simp [hlast]
  | false => simp [hlast]

/-! ## The rules with a name of their own -/

/-- Confident enough for the list of AI processes. -/
def Confident (detection : WorkloadDetection) : Prop := Double.le 0.60 detection.confidence = true

/-- The conditions before the rule for model file extensions, in order. -/
def namedRules (process : ProcessSnapshot) : List Bool :=
  let name := lowercase process.name
  let command := lowercase process.command
  let text := name ++ ' ' :: command
  let inName (needle : String) := contains name (str needle)
  let inCommand (needle : String) := contains command (str needle)
  let inText (needle : String) := contains text (str needle)
  [name = str "ollama" || inCommand "ollama serve",
    inName "ollama" && inCommand "runner",
    inCommand ".ollama" || inCommand "ollama run",
    name = str "llama-server" || name = str "llama-cli" || name = str "llama-bench",
    inCommand ".gguf" || inCommand "ggml" || (inCommand "--model" && inText "llama"),
    inName "mlx-lm" || inName "mlx_lm" || inCommand "python -m mlx_lm" ||
      inCommand "mlx_lm.server",
    inText "mlx-vlm" || inText "mlx_lm" || inText " mlx ",
    inCommand "lm studio.app" || inCommand "lmstudio" || inName "lm studio",
    inText "comfyui" || inCommand "custom_nodes",
    inCommand "safetensors" && (inCommand "diffusion" || inCommand "main.py"),
    inName "uvicorn" || inCommand "uvicorn" || inCommand "fastapi" || inCommand "gradio" ||
      inCommand "vllm" || inCommand "torchserve",
    inCommand "transformers" || inCommand "diffusers" || inCommand "sentence_transformers"]

/-- One rule of the cascade, when its own detection is confident. -/
theorem confident_rule {condition : Bool} {rules : List Bool} {kind : WorkloadKind}
    {role : WorkloadRole} {label hint reason : Text} {score : Double} {rest : WorkloadDetection}
    {P : Prop} (hscore : Double.le 0.60 score = true)
    (hrest : Confident rest ↔ true ∈ rules ∨ P) :
    Confident (if condition then ⟨kind, role, label, hint, reason, score⟩ else rest) ↔
      true ∈ condition :: rules ∨ P := by
  cases condition with
  | true => exact ⟨fun _ => .inl List.mem_cons_self, fun _ => hscore⟩
  | false => simpa using hrest

/-- A named rule is confident, and behind them all the extension rule is when it has a hint. -/
theorem confident_iff (process : ProcessSnapshot) :
    Confident (detectWorkloadProcess process) ↔
      true ∈ namedRules process ∨ genericModelHint process.command ≠ [] := by
  unfold detectWorkloadProcess namedRules
  dsimp only
  iterate 12 refine confident_rule (by decide +kernel) ?_
  split
  · rename_i hhint
    exact ⟨fun _ => .inr hhint, fun _ => (by decide +kernel : Double.le 0.60 0.62 = true)⟩
  · rename_i hhint
    refine ⟨fun h => ?_, fun h => absurd (h.resolve_left List.not_mem_nil) hhint⟩
    have hzero : ¬ Double.le 0.60 0.0 = true := by decide +kernel
    exact absurd h hzero

/-! ## Model files -/

/-- The first word with a model file extension. -/
def modelWord (command : Text) : Option Text :=
  (splitWords command).find? fun word => modelExtensions.any (contains (lowercase word))

theorem genericModelHint_eq (command : Text) :
    genericModelHint command = ((modelWord command).map basenameLike).getD [] := by
  unfold genericModelHint modelWord
  cases List.find? _ _ <;> rfl

theorem modelExtensions_plain :
    ∀ extension ∈ modelExtensions, extension ≠ [] ∧ extension.all (fun c => !isSpace c) = true := by
  decide +kernel

/-- An extension in a command is in one of its words. -/
theorem exists_modelWord {command extension : Text} (hextension : extension ∈ modelExtensions)
    (h : contains (lowercase command) extension = true) :
    ∃ word, modelWord command = some word ∧ word ≠ [] := by
  obtain ⟨hne, hall⟩ := modelExtensions_plain extension hextension
  have hspace : ∀ c ∈ extension, isSpace c = false := by
    simpa only [List.all_eq_true, Bool.not_eq_true'] using hall
  obtain ⟨found, hfound, hcontains⟩ := splitWords_infix hne hspace h
  have hsome : (modelWord command).isSome = true := by
    unfold modelWord
    rw [List.find?_isSome]
    exact ⟨found, hfound, List.any_eq_true.mpr ⟨extension, hextension, hcontains⟩⟩
  obtain ⟨word, hword⟩ := Option.isSome_iff_exists.mp hsome
  refine ⟨word, hword, ?_⟩
  rintro rfl
  have hhit := List.find?_some (p := fun word => modelExtensions.any (contains (lowercase word)))
    hword
  obtain ⟨other, hother, hempty⟩ := List.any_eq_true.mp hhit
  exact (modelExtensions_plain other hother).1
    (List.eq_nil_of_infix_nil (of_decide_eq_true hempty))

/-- A process with a model file in its command is listed exactly when a named rule takes it or the
first word with an extension does not end in a separator. -/
theorem model_file_listed_iff (process : ProcessSnapshot) (extension : Text)
    (hextension : extension ∈ modelExtensions)
    (hcontains : contains (lowercase process.command) extension = true) :
    (Double.le 0.60 (detectWorkloadProcess process).confidence = true ∧
        (aiProcessRow process).isAi = true) ↔
      true ∈ namedRules process ∨
        ∃ word, modelWord process.command = some word ∧
          ∀ c ∈ word.getLast?, isSeparator c = false := by
  rw [aiProcessRow_listed, and_self]
  refine (confident_iff process).trans (or_congr Iff.rfl ?_)
  obtain ⟨word, hword, hne⟩ := exists_modelWord hextension hcontains
  rw [genericModelHint_eq, hword]
  refine (basenameLike_ne_nil hne).trans ?_
  constructor
  · exact fun h => ⟨word, rfl, h⟩
  · rintro ⟨word', hword', h⟩
    cases hword'
    exact h

/-- A process that runs a compiled Core ML model. -/
def coreMlProcess (path : String) : ProcessSnapshot :=
  { pid := 7, name := str "coreml-run", command := str "coreml-run " ++ str path }

/-- What the detector reads in it with and without a slash at the end. -/
theorem coreMlProcess_reading :
    str ".mlmodelc" ∈ modelExtensions ∧
      (contains (lowercase (coreMlProcess "/models/Net.mlmodelc").command) (str ".mlmodelc") = true ∧
        modelWord (coreMlProcess "/models/Net.mlmodelc").command =
          some (str "/models/Net.mlmodelc")) ∧
      contains (lowercase (coreMlProcess "/models/Net.mlmodelc/").command) (str ".mlmodelc") = true ∧
      detectWorkloadProcess (coreMlProcess "/models/Net.mlmodelc/") =
        { reason := str "no AI workload signal" } ∧
      Double.le 0.60 0 = false := by
  decide +kernel

theorem model_file_listed_iff_net :
    (aiProcessRow (coreMlProcess "/models/Net.mlmodelc")).isAi = true := by
  obtain ⟨hextension, ⟨hcontains, hword⟩, -⟩ := coreMlProcess_reading
  have hlast : (str "/models/Net.mlmodelc").getLast? = some 'c' := by simp
  refine ((model_file_listed_iff (coreMlProcess "/models/Net.mlmodelc") (str ".mlmodelc") hextension
    hcontains).mpr (.inr ⟨_, hword, fun c hc => ?_⟩)).2
  rw [hlast] at hc
  cases hc
  rfl

/-- A bundle is a folder, and a folder may be written with a slash at its end. -/
theorem bundle_with_slash_is_unknown :
    contains (lowercase (coreMlProcess "/models/Net.mlmodelc/").command) (str ".mlmodelc") = true ∧
      detectWorkloadProcess (coreMlProcess "/models/Net.mlmodelc/") =
        { reason := str "no AI workload signal" } ∧
      ¬ Double.le 0.60
        (detectWorkloadProcess (coreMlProcess "/models/Net.mlmodelc/")).confidence = true ∧
      (aiProcessRow (coreMlProcess "/models/Net.mlmodelc/")).isAi = false := by
  obtain ⟨-, -, hcontains, hdetect, hscore⟩ := coreMlProcess_reading
  rw [aiProcessRow_listed, hdetect, hscore]
  exact ⟨hcontains, rfl, Bool.false_ne_true, rfl⟩

/-! ## Ollama runners -/

/-- The value taken is the one after the first occurrence of the flag. -/
theorem valueAfterFlag_split {flag value : Text} {before after : List Text} (h : flag ∉ before) :
    valueAfterFlag flag (before ++ flag :: value :: after) = some value := by
  induction before with
  | nil => exact if_pos rfl
  | cons token before ih =>
    obtain ⟨hne, hbefore⟩ := not_or.mp (List.mem_cons.not.mp h)
    have hrest := ih hbefore
    cases before with
    | nil => exact (if_neg (Ne.symm hne)).trans hrest
    | cons next before => exact (if_neg (Ne.symm hne)).trans hrest

theorem modelFlagHint_split {command value : Text} {before after : List Text}
    (hwords : splitWords command = before ++ str "--model" :: value :: after)
    (hfirst : str "--model" ∉ before) : modelFlagHint command = basenameLike value := by
  unfold modelFlagHint
  rw [hwords]
  dsimp only
  rw [valueAfterFlag_split hfirst]

/-- Behind the rule for managers, a runner is taken by the next one. -/
theorem detect_ollama {process : ProcessSnapshot}
    (hname : contains (lowercase process.name) (str "ollama") = true)
    (hrunner : contains (lowercase process.command) (str "runner") = true)
    (hserve : contains (lowercase process.command) (str "ollama serve") = false) :
    detectWorkloadProcess process =
      if lowercase process.name = str "ollama" then
        ⟨.ollama, .manager, str "ollama", [], str "ollama manager process", 0.96⟩
      else
        ⟨.ollama, .runner, str "ollama runner", modelFlagHint process.command,
          str "ollama runner process", 0.95⟩ := by
  unfold detectWorkloadProcess
  dsimp only
  by_cases hmanager : lowercase process.name = str "ollama"
  · rw [if_pos hmanager]
    exact if_pos (Bool.or_eq_true_iff.mpr (.inl (decide_eq_true hmanager)))
  · rw [if_neg hmanager, if_neg, if_pos (Bool.and_eq_true_iff.mpr ⟨hname, hrunner⟩)]
    rw [Bool.or_eq_true_iff, decide_eq_true_eq, hserve]
    exact fun h => h.elim hmanager Bool.false_ne_true

/-- A runner with a `--model` flag gets its role and its hint exactly when its name is more than
`ollama`. -/
theorem ollama_runner_iff (process : ProcessSnapshot) (before after : List Text) (value : Text)
    (hname : contains (lowercase process.name) (str "ollama") = true)
    (hrunner : contains (lowercase process.command) (str "ollama runner") = true)
    (hserve : contains (lowercase process.command) (str "ollama serve") = false)
    (hwords : splitWords process.command = before ++ str "--model" :: value :: after)
    (hfirst : str "--model" ∉ before) :
    ((detectWorkloadProcess process).kind = .ollama ∧
        (detectWorkloadProcess process).role = .runner ∧
          LastComponent value (detectWorkloadProcess process).modelHint) ↔
      lowercase process.name ≠ str "ollama" := by
  have hpart : str "runner" <:+: str "ollama runner" := ⟨str "ollama ", [], by simp⟩
  have hrunner' : contains (lowercase process.command) (str "runner") = true :=
    decide_eq_true (hpart.trans (of_decide_eq_true hrunner))
  rw [detect_ollama hname hrunner' hserve]
  split
  · rename_i hmanager
    exact ⟨fun h => WorkloadRole.noConfusion h.2.1, fun h => absurd hmanager h⟩
  · rename_i hother
    refine ⟨fun _ => hother, fun _ => ⟨rfl, rfl, ?_⟩⟩
    dsimp only
    rw [modelFlagHint_split hwords hfirst]
    exact basenameLike_lastComponent value

/-- A process that runs a model for Ollama. -/
def ollamaProcess (name : String) : ProcessSnapshot :=
  { pid := 101, name := str name, command := str "ollama runner --model llama3.1:8b" }

/-- What the detector reads in two names of it. -/
theorem ollamaProcess_reading :
    (contains (lowercase (ollamaProcess "ollama-helper").name) (str "ollama") = true ∧
      lowercase (ollamaProcess "ollama-helper").name ≠ str "ollama" ∧
      contains (lowercase (ollamaProcess "ollama").name) (str "ollama") = true) ∧
    (contains (lowercase (ollamaProcess "ollama").command) (str "ollama runner") = true ∧
      contains (lowercase (ollamaProcess "ollama").command) (str "ollama serve") = false ∧
      splitWords (ollamaProcess "ollama").command =
        [str "ollama", str "runner", str "--model", str "llama3.1:8b"] ∧
      str "--model" ∉ [str "ollama", str "runner"]) ∧
    detectWorkloadProcess (ollamaProcess "ollama") =
      ⟨.ollama, .manager, str "ollama", [], str "ollama manager process", 0.96⟩ := by
  decide +kernel

theorem ollama_runner_iff_helper :
    (detectWorkloadProcess (ollamaProcess "ollama-helper")).role = .runner :=
  have ⟨⟨hname, hother, _⟩, ⟨hrunner, hserve, hwords, hfirst⟩, _⟩ := ollamaProcess_reading
  ((ollama_runner_iff (ollamaProcess "ollama-helper") [str "ollama", str "runner"] []
    (str "llama3.1:8b") hname hrunner hserve hwords hfirst).mpr hother).2.1

/-- The runner of the tests has the plain name of the program and is taken for its manager. -/
theorem plain_name_is_manager :
    contains (lowercase (ollamaProcess "ollama").name) (str "ollama") = true ∧
      contains (lowercase (ollamaProcess "ollama").command) (str "ollama runner") = true ∧
      contains (lowercase (ollamaProcess "ollama").command) (str "ollama serve") = false ∧
      splitWords (ollamaProcess "ollama").command =
        [str "ollama", str "runner", str "--model", str "llama3.1:8b"] ∧
      detectWorkloadProcess (ollamaProcess "ollama") =
        ⟨.ollama, .manager, str "ollama", [], str "ollama manager process", 0.96⟩ ∧
      ¬ ((detectWorkloadProcess (ollamaProcess "ollama")).kind = .ollama ∧
        (detectWorkloadProcess (ollamaProcess "ollama")).role = .runner ∧
          LastComponent (str "llama3.1:8b")
            (detectWorkloadProcess (ollamaProcess "ollama")).modelHint) := by
  obtain ⟨⟨-, -, hname⟩, ⟨hrunner, hserve, hwords, -⟩, hdetect⟩ := ollamaProcess_reading
  refine ⟨hname, hrunner, hserve, hwords, hdetect, fun h => ?_⟩
  rw [hdetect] at h
  exact WorkloadRole.noConfusion h.2.1

end Mtop
