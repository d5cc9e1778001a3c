import RackMcp.Server.Adapters
import Mathlib.Data.List.AList

/-!
# The recipes

`packages/recipes`: the registry, the resolution of a recipe's roles against the installed models, and the expansion of
its operations. Of a recipe the members stay that the server reads. A template is written with the authoring helpers of
`data.ts`, which `Template.operation` spells out.
-/

namespace RackMcp.Recipes

/-! ### Operations -/

/-- What a decimal literal is for the plugin: `JSON.stringify` writes a whole number without a point. -/
def jsonNumber (q : ℚ) : Json := if q.den = 1 then .integer q.num else .real (.ofDecimal q)

/-- `{ alias }`. -/
def aliasRef (aliasName : String) : Json := .object [("alias", .string aliasName)]

/-- `addRole`, `setNorm` and `connect`. -/
inductive Template where
  | addRole (roleKey aliasName : String)
  | setNorm (aliasName : String) (paramId : ℤ) (normalized : ℚ)
  | connect (outAlias : String) (outPort : ℤ) (inAlias : String) (inPort : ℤ)
deriving DecidableEq

def Template.operation : Template → Json
  | .addRole roleKey aliasName =>
    .object [("op", .string "add_module"), ("pluginSlug", .string "$role"), ("modelSlug", .string roleKey),
      ("alias", .string aliasName), ("placement", .string "auto")]
  | .setNorm aliasName paramId normalized =>
    .object [("op", .string "set_parameter"), ("module", aliasRef aliasName), ("paramId", .integer paramId),
      ("normalized", jsonNumber normalized)]
  | .connect outAlias outPort inAlias inPort =>
    .object [("op", .string "connect"),
      ("output", .object [("module", aliasRef outAlias), ("portType", .string "output"), ("portId", .integer outPort)]),
      ("input", .object [("module", aliasRef inAlias), ("portType", .string "input"), ("portId", .integer inPort)]),
      ("inputPolicy", .string "fail_if_connected")]

/-- A model by its slugs. -/
abbrev ModelRef := String × String

/-- `RecipeRoleRequirement`. -/
structure RoleRequirement where
  role : String
  description : String
  preferred : ModelRef
deriving DecidableEq

/-- `Recipe`. -/
structure Recipe where
  id : String
  name : String
  roles : List RoleRequirement
  template : List Template
deriving DecidableEq

def Recipe.operations (recipe : Recipe) : List Json := recipe.template.map Template.operation

/-! ### The registry -/

/-- `MIDI`. -/
def Midi.pitch : ℤ := 0
def Midi.gate : ℤ := 1

/-- `VCO`. -/
def Vco.pitchIn : ℤ := 0
def Vco.sawOut : ℤ := 2

/-- `VCF`. -/
def Vcf.cutoffCv : ℤ := 0
def Vcf.audioIn : ℤ := 3
def Vcf.lpOut : ℤ := 0
def Vcf.cutoffParam : ℤ := 0
def Vcf.cutoffDepth : ℤ := 3

/-- `VCA`. -/
def Vca.gainCv : ℤ := 0
def Vca.audioIn : ℤ := 1
def Vca.audioOut : ℤ := 0
def Vca.level : ℤ := 0

/-- `ADSR`. -/
def Adsr.gateIn : ℤ := 4
def Adsr.envOut : ℤ := 0
def Adsr.attack : ℤ := 0
def Adsr.decay : ℤ := 1
def Adsr.sustain : ℤ := 2
def Adsr.release : ℤ := 3

/-- `LFO`. -/
def Lfo.freq : ℤ := 2
def Lfo.sineOut : ℤ := 0
def Lfo.squareOut : ℤ := 3

/-- `AUDIO`. -/
def Audio.in1 : ℤ := 0
def Audio.in2 : ℤ := 1

/-- `SEQ`. -/
def Seq.clockIn : ℤ := 1
def Seq.trigOut : ℤ := 0
def Seq.cv1Out : ℤ := 1
def Seq.stepsParam : ℤ := 3

/-- `DELAY`. -/
def Delay.audioIn : ℤ := 4
def Delay.mixOut : ℤ := 0
def Delay.timeParam : ℤ := 0
def Delay.feedbackParam : ℤ := 1
def Delay.mixParam : ℤ := 3

/-- `PROBE`. -/
def Probe.p1 : ℤ := 0
def Probe.p2 : ℤ := 1
def Probe.p3 : ℤ := 2

/-- `R1_basicMono`. -/
def basicMono : Recipe where
  id := "basic_mono_subtractive"
  name := "Basic monophonic subtractive voice"
  roles :=
    [⟨"midi_input", "Note/gate source for the voice.", ("Core", "MIDIToCVInterface")⟩,
     ⟨"oscillator", "Primary tone generator (pitched by the MIDI CV).", ("Fundamental", "VCO")⟩,
     ⟨"filter", "Low-pass filter that shapes timbre.", ("Fundamental", "VCF")⟩,
     ⟨"envelope", "ADSR envelope controlling amplitude over time.", ("Fundamental", "ADSR")⟩,
     ⟨"amplifier", "Voltage-controlled amplifier gating the voice by the envelope.", ("Fundamental", "VCA-1")⟩,
     ⟨"audio_output", "Final audio sink to the sound device.", ("Core", "AudioInterface2")⟩]
  template :=
    [.addRole "midi_input" "midi", .addRole "oscillator" "vco", .addRole "filter" "vcf", .addRole "envelope" "env",
     .addRole "amplifier" "vca", .addRole "audio_output" "audio", .setNorm "vcf" Vcf.cutoffParam 0.55,
     .setNorm "env" Adsr.attack 0.05, .setNorm "env" Adsr.decay 0.4, .setNorm "env" Adsr.sustain 0.7,
     .setNorm "env" Adsr.release 0.35, .setNorm "vca" Vca.level 1, .connect "midi" Midi.pitch "vco" Vco.pitchIn,
     .connect "midi" Midi.gate "env" Adsr.gateIn, .connect "vco" Vco.sawOut "vcf" Vcf.audioIn,
     .connect "env" Adsr.envOut "vca" Vca.gainCv, .connect "vcf" Vcf.lpOut "vca" Vca.audioIn,
     .connect "vca" Vca.audioOut "audio" Audio.in1, .connect "vca" Vca.audioOut "audio" Audio.in2]

/-- `R2_polyMono`. -/
def polyMono : Recipe where
  id := "poly_midi_subtractive"
  name := "Polyphonic MIDI subtractive voice"
  roles :=
    [⟨"midi_input", "Polyphonic note/gate source (set channel count in its context menu).",
      ("Core", "MIDIToCVInterface")⟩,
     ⟨"oscillator", "Oscillator; runs one instance per polyphony channel.", ("Fundamental", "VCO")⟩,
     ⟨"filter", "Low-pass filter (polyphonic).", ("Fundamental", "VCF")⟩,
     ⟨"envelope", "Per-voice ADSR envelope (polyphonic from the gate).", ("Fundamental", "ADSR")⟩,
     ⟨"amplifier", "Per-voice VCA gated by the envelope.", ("Fundamental", "VCA-1")⟩,
     ⟨"audio_output", "Audio sink; sums polyphony channels to the device.", ("Core", "AudioInterface2")⟩]
  template :=
    [.addRole "midi_input" "midi", .addRole "oscillator" "vco", .addRole "filter" "vcf", .addRole "envelope" "env",
     .addRole "amplifier" "vca", .addRole "audio_output" "audio", .setNorm "vcf" Vcf.cutoffParam 0.55,
     .setNorm "env" Adsr.attack 0.05, .setNorm "env" Adsr.decay 0.4, .setNorm "env" Adsr.sustain 0.7,
     .setNorm "env" Adsr.release 0.35, .setNorm "vca" Vca.level 1, .connect "midi" Midi.pitch "vco" Vco.pitchIn,
     .connect "midi" Midi.gate "env" Adsr.gateIn, .connect "vco" Vco.sawOut "vcf" Vcf.audioIn,
     .connect "env" Adsr.envOut "vca" Vca.gainCv, .connect "vcf" Vcf.lpOut "vca" Vca.audioIn,
     .connect "vca" Vca.audioOut "audio" Audio.in1, .connect "vca" Vca.audioOut "audio" Audio.in2]

/-- `R3_clockedSeq`. -/
def clockedSeq : Recipe where
  id := "clocked_8_step_sequence"
  name := "Clocked 8-step sequence"
  roles :=
    [⟨"clock", "Clock source (LFO square wave) advancing the sequencer.", ("Fundamental", "LFO")⟩,
     ⟨"sequencer", "8-step CV/gate sequencer.", ("Fundamental", "SEQ3")⟩,
     ⟨"oscillator", "Oscillator pitched by the sequencer CV.", ("Fundamental", "VCO")⟩,
     ⟨"envelope", "ADSR fired by each step trigger.", ("Fundamental", "ADSR")⟩,
     ⟨"filter", "Low-pass filter.", ("Fundamental", "VCF")⟩,
     ⟨"amplifier", "VCA gated by the envelope.", ("Fundamental", "VCA-1")⟩,
     ⟨"audio_output", "Audio sink.", ("Core", "AudioInterface2")⟩]
  template :=
    [.addRole "clock" "clk", .addRole "sequencer" "seq", .addRole "oscillator" "vco", .addRole "envelope" "env",
     .addRole "filter" "vcf", .addRole "amplifier" "vca", .addRole "audio_output" "audio",
     .setNorm "clk" Lfo.freq 0.4, .setNorm "seq" Seq.stepsParam 1, .setNorm "vcf" Vcf.cutoffParam 0.5,
     .setNorm "env" Adsr.attack 0.02, .setNorm "env" Adsr.decay 0.3, .setNorm "env" Adsr.sustain 0.5,
     .setNorm "env" Adsr.release 0.2, .setNorm "vca" Vca.level 1, .connect "clk" Lfo.squareOut "seq" Seq.clockIn,
     .connect "seq" Seq.cv1Out "vco" Vco.pitchIn, .connect "seq" Seq.trigOut "env" Adsr.gateIn,
     .connect "vco" Vco.sawOut "vcf" Vcf.audioIn, .connect "env" Adsr.envOut "vca" Vca.gainCv,
     .connect "vcf" Vcf.lpOut "vca" Vca.audioIn, .connect "vca" Vca.audioOut "audio" Audio.in1,
     .connect "vca" Vca.audioOut "audio" Audio.in2]

/-- `R4_stereoDelay`. -/
def stereoDelay : Recipe where
  id := "stereo_delay_send_return"
  name := "Stereo send/return delay"
  roles :=
    [⟨"source", "Sound source feeding the stereo delay bus.", ("Fundamental", "VCO")⟩,
     ⟨"delay_left", "Left-channel delay line.", ("Fundamental", "Delay")⟩,
     ⟨"delay_right", "Right-channel delay line (different time for width).", ("Fundamental", "Delay")⟩,
     ⟨"audio_output", "Stereo audio sink.", ("Core", "AudioInterface2")⟩]
  template :=
    [.addRole "source" "src", .addRole "delay_left" "delL", .addRole "delay_right" "delR",
     .addRole "audio_output" "audio", .setNorm "delL" Delay.timeParam 0.25, .setNorm "delR" Delay.timeParam 0.45,
     .setNorm "delL" Delay.feedbackParam 0.4, .setNorm "delR" Delay.feedbackParam 0.4,
     .setNorm "delL" Delay.mixParam 0.5, .setNorm "delR" Delay.mixParam 0.5,
     .connect "src" Vco.sawOut "delL" Delay.audioIn, .connect "src" Vco.sawOut "delR" Delay.audioIn,
     .connect "delL" Delay.mixOut "audio" Audio.in1, .connect "delR" Delay.mixOut "audio" Audio.in2]

/-- `R5_safeMaster`. -/
def safeMaster : Recipe where
  id := "safe_master_output"
  name := "Safe master output"
  roles :=
    [⟨"master_vca", "Master fader VCA before the audio device.", ("Fundamental", "VCA-1")⟩,
     ⟨"audio_output", "Audio sink to the sound device.", ("Core", "AudioInterface2")⟩]
  template :=
    [.addRole "master_vca" "master", .addRole "audio_output" "audio", .setNorm "master" Vca.level 0.7,
     .connect "master" Vca.audioOut "audio" Audio.in1, .connect "master" Vca.audioOut "audio" Audio.in2]

/-- `R6_lfoMod`. -/
def lfoMod : Recipe where
  id := "lfo_filter_modulation"
  name := "LFO filter modulation"
  roles :=
    [⟨"source", "Oscillator tone source.", ("Fundamental", "VCO")⟩,
     ⟨"lfo", "Low-frequency modulation source.", ("Fundamental", "LFO")⟩,
     ⟨"filter", "Low-pass filter whose cutoff is modulated.", ("Fundamental", "VCF")⟩,
     ⟨"amplifier", "Output VCA.", ("Fundamental", "VCA-1")⟩,
     ⟨"audio_output", "Audio sink.", ("Core", "AudioInterface2")⟩]
  template :=
    [.addRole "source" "vco", .addRole "lfo" "lfo", .addRole "filter" "vcf", .addRole "amplifier" "vca",
     .addRole "audio_output" "audio", .setNorm "lfo" Lfo.freq 0.25, .setNorm "vcf" Vcf.cutoffParam 0.5,
     .setNorm "vcf" Vcf.cutoffDepth 0.75, .setNorm "vca" Vca.level 0.8, .connect "vco" Vco.sawOut "vcf" Vcf.audioIn,
     .connect "lfo" Lfo.sineOut "vcf" Vcf.cutoffCv, .connect "vcf" Vcf.lpOut "vca" Vca.audioIn,
     .connect "vca" Vca.audioOut "audio" Audio.in1, .connect "vca" Vca.audioOut "audio" Audio.in2]

/-- `R7_sidechain`. -/
def sidechain : Recipe where
  id := "sidechain_envelope_follow"
  name := "Sidechain envelope amplitude control"
  roles :=
    [⟨"main_source", "Main signal whose amplitude is modulated.", ("Fundamental", "VCO")⟩,
     ⟨"trigger_source", "Sidechain trigger/gate source.", ("Core", "MIDIToCVInterface")⟩,
     ⟨"envelope", "Envelope generating the gain contour.", ("Fundamental", "ADSR")⟩,
     ⟨"duck_vca", "VCA whose gain follows the envelope.", ("Fundamental", "VCA-1")⟩,
     ⟨"audio_output", "Audio sink.", ("Core", "AudioInterface2")⟩]
  template :=
    [.addRole "main_source" "src", .addRole "trigger_source" "trig", .addRole "envelope" "env",
     .addRole "duck_vca" "vca", .addRole "audio_output" "audio", .setNorm "env" Adsr.attack 0.02,
     .setNorm "env" Adsr.decay 0.25, .setNorm "env" Adsr.sustain 0, .setNorm "env" Adsr.release 0.3,
     .setNorm "vca" Vca.level 1, .connect "src" Vco.sawOut "vca" Vca.audioIn,
     .connect "trig" Midi.gate "env" Adsr.gateIn, .connect "env" Adsr.envOut "vca" Vca.gainCv,
     .connect "vca" Vca.audioOut "audio" Audio.in1, .connect "vca" Vca.audioOut "audio" Audio.in2]

/-- `R8_probeDiag`. -/
def probeDiag : Recipe where
  id := "probe_silence_diagnosis"
  name := "Probe-assisted silence diagnosis"
  roles :=
    [⟨"midi_input", "Note/gate source.", ("Core", "MIDIToCVInterface")⟩,
     ⟨"oscillator", "Oscillator (tap 1).", ("Fundamental", "VCO")⟩,
     ⟨"filter", "Filter (tap 2).", ("Fundamental", "VCF")⟩,
     ⟨"envelope", "ADSR envelope.", ("Fundamental", "ADSR")⟩,
     ⟨"amplifier", "VCA (tap 3).", ("Fundamental", "VCA-1")⟩,
     ⟨"audio_output", "Audio sink.", ("Core", "AudioInterface2")⟩,
     ⟨"probe", "RackMCP Probe telemetry tap for diagnosis.", ("RackMCP", "Probe")⟩]
  template :=
    [.addRole "midi_input" "midi", .addRole "oscillator" "vco", .addRole "filter" "vcf", .addRole "envelope" "env",
     .addRole "amplifier" "vca", .addRole "audio_output" "audio", .addRole "probe" "probe",
     .setNorm "vcf" Vcf.cutoffParam 0.55, .setNorm "env" Adsr.attack 0.05, .setNorm "env" Adsr.decay 0.4,
     .setNorm "env" Adsr.sustain 0.7, .setNorm "env" Adsr.release 0.35, .setNorm "vca" Vca.level 1,
     .connect "midi" Midi.pitch "vco" Vco.pitchIn, .connect "midi" Midi.gate "env" Adsr.gateIn,
     .connect "vco" Vco.sawOut "vcf" Vcf.audioIn, .connect "env" Adsr.envOut "vca" Vca.gainCv,
     .connect "vcf" Vcf.lpOut "vca" Vca.audioIn, .connect "vca" Vca.audioOut "audio" Audio.in1,
     .connect "vca" Vca.audioOut "audio" Audio.in2, .connect "vco" Vco.sawOut "probe" Probe.p1,
     .connect "vcf" Vcf.lpOut "probe" Probe.p2, .connect "vca" Vca.audioOut "probe" Probe.p3]

/-- `RECIPE_DOCS`. -/
def recipeDocs : List Recipe :=
  [basicMono, polyMono, clockedSeq, stereoDelay, safeMaster, lfoMod, sidechain, probeDiag]

/-- `getRecipe`. -/
def getRecipe (id : String) : Option Recipe := recipeDocs.find? (·.id == id)

-- the registry refuses to load with two recipes under one id
example : (recipeDocs.map (·.id)).Nodup := by decide

/-! ### Resolution -/

/-- `RecipeResolution`. -/
structure RecipeResolution where
  recipeId : String
  resolved : Bool
  unresolvedRoles : List RoleRequirement
  assignments : AList fun _ : String => ModelRef

/-- The loop over the roles. -/
def assignRoles (installed : List ModelRef) : List RoleRequirement → AList (fun _ : String => ModelRef) →
    List RoleRequirement → AList (fun _ : String => ModelRef) × List RoleRequirement
  | [], assignments, unresolvedRoles => (assignments, unresolvedRoles)
  | role :: roles, assignments, unresolvedRoles =>
    if role.preferred ∈ installed then
      assignRoles installed roles (assignments.insert role.role role.preferred) unresolvedRoles
    else assignRoles installed roles assignments (unresolvedRoles ++ [role])

/-- `resolveRecipe`. -/
def resolveRecipe (recipe : Recipe) (installed : List ModelRef) : RecipeResolution :=
  let (assignments, unresolvedRoles) := assignRoles installed recipe.roles ∅ []
  { recipeId := recipe.id
    resolved := unresolvedRoles.isEmpty
    unresolvedRoles := unresolvedRoles
    assignments := assignments }

/-! ### Expansion -/

/-- `subst`. -/
def subst (recipeId : String) (assignments : AList fun _ : String => ModelRef) (pluginSlug modelSlug : String) :
    Except String ModelRef :=
  if pluginSlug ≠ "$role" then .ok (pluginSlug, modelSlug)
  else
    match assignments.lookup modelSlug with
    | none => .error ("Recipe " ++ recipeId ++ " references unassigned role \"" ++ modelSlug ++ "\"")
    | some assigned => .ok assigned

/-- `{ ...op, pluginSlug, modelSlug }`. -/
def withSlugs (model : ModelRef) (op : Json) : Json :=
  match op with
  | .object members =>
    .object (members.map fun m =>
      if m.1 = "pluginSlug" then (m.1, .string model.1)
      else if m.1 = "modelSlug" then (m.1, .string model.2) else m)
  | op => op

/-- What `expandRecipeOperations` makes of an operation. -/
def expandOperation (recipeId : String) (assignments : AList fun _ : String => ModelRef) (op : Json) :
    Except String Json :=
  if jstr op "op" = "add_module" then
    (subst recipeId assignments (jstr op "pluginSlug") (jstr op "modelSlug")).map fun model => withSlugs model op
  else .ok op

/-- `expandRecipeOperations`. -/
def expandRecipeOperations (recipe : Recipe) (resolution : RecipeResolution) : Except String (List Json) :=
  if ¬ resolution.resolved then
    .error ("Recipe " ++ recipe.id ++ " is not fully resolved; cannot expand operations")
  else recipe.operations.mapM (expandOperation recipe.id resolution.assignments)

end RackMcp.Recipes
