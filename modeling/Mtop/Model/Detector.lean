import Mtop.Snapshot

/-! `workload_detector.cpp`: which processes look like AI workloads, and what model they run. -/
namespace Mtop
open Cxx
set_option autoImplicit false

inductive WorkloadKind where
  | ollama | llamaCpp | mlx | pythonInference | lmStudio | comfyUi | genericModel | unknown
  deriving DecidableEq, Inhabited

inductive WorkloadRole where
  | manager | server | runner | worker | frontend | unknown
  deriving DecidableEq, Inhabited

structure WorkloadDetection where
  kind : WorkloadKind := .unknown
  role : WorkloadRole := .unknown
  label : Text := []
  modelHint : Text := []
  reason : Text := []
  confidence : Double := 0
  deriving DecidableEq, Inhabited

def workloadKindName : WorkloadKind → Text
  | .ollama => str "ollama"
  | .llamaCpp => str "llama_cpp"
  | .mlx => str "mlx"
  | .pythonInference => str "python_inference"
  | .lmStudio => str "lm_studio"
  | .comfyUi => str "comfyui"
  | .genericModel => str "generic_model"
  | .unknown => str "unknown"

def workloadKindLabel : WorkloadKind → Text
  | .ollama => str "Ollama"
  | .llamaCpp => str "llama.cpp"
  | .mlx => str "MLX"
  | .pythonInference => str "Python"
  | .lmStudio => str "LM Studio"
  | .comfyUi => str "ComfyUI"
  | .genericModel => str "Model"
  | .unknown => str "Unknown"

def workloadRoleName : WorkloadRole → Text
  | .manager => str "manager"
  | .server => str "server"
  | .runner => str "runner"
  | .worker => str "worker"
  | .frontend => str "frontend"
  | .unknown => str "unknown"

/-! ## Model hints -/

def valueAfterFlag (flag : Text) : List Text → Option Text
  | token :: value :: rest => if token = flag then some value else valueAfterFlag flag (value :: rest)
  | _ => none

/-- The loop of `split_words`: words so far and the word being collected. -/
def splitWordsStep (acc : List Text × Text) (ch : Char) : List Text × Text :=
  if isSpace ch then (if acc.2 = [] then acc else (acc.1 ++ [acc.2], []))
  else (acc.1, acc.2 ++ [ch])

def splitWords (text : Text) : List Text :=
  let acc := text.foldl splitWordsStep ([], [])
  if acc.2 = [] then acc.1 else acc.1 ++ [acc.2]

def basenameLike (path : Text) : Text := afterLastOf ['/', '\\'] path

def modelExtensions : List Text :=
  [str ".gguf", str ".safetensors", str ".onnx", str ".mlmodelc"]

def genericModelHint (command : Text) : Text :=
  match (splitWords command).find? fun word => modelExtensions.any (contains (lowercase word)) with
  | some word => basenameLike word
  | none => []

def modelFlagHint (command : Text) : Text :=
  let words := splitWords command
  match valueAfterFlag (str "--model") words with
  | some value => basenameLike value
  | none =>
    match valueAfterFlag (str "-m") words with
    | some value => basenameLike value
    | none => genericModelHint command

/-! ## Detection -/

/-- `process.name.empty() ? fallback : process.name`. -/
def nameOr (process : ProcessSnapshot) (fallback : Text) : Text :=
  if process.name = [] then fallback else process.name

def detectWorkloadProcess (process : ProcessSnapshot) : WorkloadDetection :=
  let name := lowercase process.name
  let command := lowercase process.command
  let text := name ++ ' ' :: command
  let inName (needle : String) := contains name (str needle)
  let inCommand (needle : String) := contains command (str needle)
  let inText (needle : String) := contains text (str needle)
  if name = str "ollama" || inCommand "ollama serve" then
    ⟨.ollama, .manager, str "ollama", [], str "ollama manager process", 0.96⟩
  else if inName "ollama" && inCommand "runner" then
    ⟨.ollama, .runner, str "ollama runner", modelFlagHint process.command,
      str "ollama runner process", 0.95⟩
  else if inCommand ".ollama" || inCommand "ollama run" then
    ⟨.ollama, .runner, str "ollama", modelFlagHint process.command,
      str "ollama command or model path", 0.72⟩
  else if name = str "llama-server" || name = str "llama-cli" || name = str "llama-bench" then
    ⟨.llamaCpp, .server, process.name, modelFlagHint process.command,
      str "llama.cpp executable name", 0.94⟩
  else if inCommand ".gguf" || inCommand "ggml" || (inCommand "--model" && inText "llama") then
    ⟨.llamaCpp, .runner, nameOr process (str "llama.cpp"), modelFlagHint process.command,
      str "model path or llama.cpp flag", 0.70⟩
  else if inName "mlx-lm" || inName "mlx_lm" || inCommand "python -m mlx_lm" ||
      inCommand "mlx_lm.server" then
    ⟨.mlx, .server, nameOr process (str "mlx"), modelFlagHint process.command,
      str "MLX LM process", 0.93⟩
  else if inText "mlx-vlm" || inText "mlx_lm" || inText " mlx " then
    ⟨.mlx, .worker, nameOr process (str "mlx"), modelFlagHint process.command,
      str "MLX command hint", 0.68⟩
  else if inCommand "lm studio.app" || inCommand "lmstudio" || inName "lm studio" then
    ⟨.lmStudio, .server, str "LM Studio", modelFlagHint process.command,
      str "LM Studio app or server path", 0.92⟩
  else if inText "comfyui" || inCommand "custom_nodes" then
    ⟨.comfyUi, .server, str "ComfyUI", genericModelHint process.command,
      str "ComfyUI path or custom nodes", 0.92⟩
  else if inCommand "safetensors" && (inCommand "diffusion" || inCommand "main.py") then
    ⟨.comfyUi, .worker, str "ComfyUI", genericModelHint process.command,
      str "diffusion model path", 0.72⟩
  else if inName "uvicorn" || inCommand "uvicorn" || inCommand "fastapi" || inCommand "gradio" ||
      inCommand "vllm" || inCommand "torchserve" then
    ⟨.pythonInference, .server, nameOr process (str "python server"),
      modelFlagHint process.command, str "Python inference server", 0.84⟩
  else if inCommand "transformers" || inCommand "diffusers" || inCommand "sentence_transformers" then
    ⟨.pythonInference, .worker, nameOr process (str "python inference"),
      modelFlagHint process.command, str "Python model library hint", 0.66⟩
  else
    let modelHint := genericModelHint process.command
    if modelHint ≠ [] then
      ⟨.genericModel, .unknown, nameOr process (str "model process"), modelHint,
        str "model file extension", 0.62⟩
    else ⟨.unknown, .unknown, [], [], str "no AI workload signal", 0.0⟩

/-! ## What the branches can return -/

/-- Kind, role and confidence of each branch of `detectWorkloadProcess`. -/
def detectionRules : List (WorkloadKind × WorkloadRole × Double) :=
  [(.ollama, .manager, 0.96), (.ollama, .runner, 0.95), (.ollama, .runner, 0.72),
   (.llamaCpp, .server, 0.94), (.llamaCpp, .runner, 0.70), (.mlx, .server, 0.93),
   (.mlx, .worker, 0.68), (.lmStudio, .server, 0.92), (.comfyUi, .server, 0.92),
   (.comfyUi, .worker, 0.72), (.pythonInference, .server, 0.84), (.pythonInference, .worker, 0.66),
   (.genericModel, .unknown, 0.62), (.unknown, .unknown, 0.0)]

def FollowsRule (detection : WorkloadDetection) : Prop :=
  (detection.kind, detection.role, detection.confidence) ∈ detectionRules

theorem FollowsRule.ite {c : Prop} [Decidable c] {a b : WorkloadDetection} (ha : FollowsRule a)
    (hb : FollowsRule b) : FollowsRule (if c then a else b) := by
  split
  · exact ha
  · exact hb

theorem detect_followsRule (process : ProcessSnapshot) :
    FollowsRule (detectWorkloadProcess process) := by
  unfold detectWorkloadProcess
  dsimp only
  repeat' apply FollowsRule.ite
  all_goals simp only [FollowsRule, detectionRules, List.mem_cons, true_or, or_true]

theorem detect_confidence_isFinite (process : ProcessSnapshot) :
    (detectWorkloadProcess process).confidence.isFinite = true := by
  have h : ∀ rule ∈ detectionRules, rule.2.2.isFinite = true := by decide
  exact h _ (detect_followsRule process)

end Mtop
