import RackMcp.Json

/-!
# The module adapters

`packages/adapters`: what the ports and parameters of some models are for. Of a document the members stay that the server
reads; a number is the decimal that stands in `data.ts`, and `Double.ofDecimal` the double it denotes.
-/

namespace RackMcp

/-! ### Decimals -/

/-- `2 ^ e`. -/
def pow2 (e : ℤ) : ℚ :=
  match e with
  | .ofNat n => (1 <<< n : ℕ)
  | .negSucc n => mkRat 1 (1 <<< (n + 1))

/-- The exponent of a positive number: the largest `e` with `2 ^ e ≤ q`. -/
def exponent (q : ℚ) : ℤ :=
  let e : ℤ := (q.num.natAbs.log2 : ℤ) - q.den.log2
  if pow2 e ≤ q then e else e - 1

/-- The nearest integer, of two the even one. -/
def roundHalfEven (q : ℚ) : ℤ :=
  let rest := q - q.floor
  if rest < 1 / 2 ∨ rest = 1 / 2 ∧ q.floor % 2 = 0 then q.floor else q.floor + 1

/-- The double nearest to a decimal that is within the range of doubles. -/
def Double.ofDecimal (q : ℚ) : Double :=
  if q = 0 then .finite 0
  else
    let unit := pow2 (max (exponent (if q < 0 then -q else q) - 52) (-1074))
    .finite (roundHalfEven (q / unit) * unit)

example : Double.ofDecimal (1 / 10) = .finite (mkRat 3602879701896397 (1 <<< 55)) := by decide +kernel

/-! ### The documents -/

inductive SignalRole where
  | audio
  | cvUnipolar
  | cvBipolar
  | pitchVoct
  | gate
  | trigger
  | clock
  | unknown
deriving DecidableEq

inductive PolyphonyBehavior where
  | monophonic
  | polyphonic
  | polyFromInput
  | unknown
deriving DecidableEq

structure AdapterParamSemantics where
  paramId : ℤ
  safeRange : Option (ℚ × ℚ)
deriving DecidableEq

structure AdapterPortSemantics where
  portId : ℤ
  role : SignalRole
  polyphony : PolyphonyBehavior
deriving DecidableEq

structure ModuleAdapter where
  pluginSlug : String
  modelSlug : String
  params : List AdapterParamSemantics
  inputs : List AdapterPortSemantics
  outputs : List AdapterPortSemantics
deriving DecidableEq

/-- `ADAPTER_DOCS`. -/
def adapterDocs : List ModuleAdapter :=
  [⟨"Core", "AudioInterface2",
    [⟨0, some (0, 1)⟩],
    [⟨0, .audio, .monophonic⟩, ⟨1, .audio, .monophonic⟩],
    [⟨0, .audio, .monophonic⟩, ⟨1, .audio, .monophonic⟩]⟩,
   ⟨"Core", "AudioInterface",
    [],
    [⟨0, .audio, .monophonic⟩, ⟨1, .audio, .monophonic⟩, ⟨2, .audio, .monophonic⟩, ⟨3, .audio, .monophonic⟩,
     ⟨4, .audio, .monophonic⟩, ⟨5, .audio, .monophonic⟩, ⟨6, .audio, .monophonic⟩, ⟨7, .audio, .monophonic⟩],
    [⟨0, .audio, .monophonic⟩, ⟨1, .audio, .monophonic⟩, ⟨2, .audio, .monophonic⟩, ⟨3, .audio, .monophonic⟩,
     ⟨4, .audio, .monophonic⟩, ⟨5, .audio, .monophonic⟩, ⟨6, .audio, .monophonic⟩, ⟨7, .audio, .monophonic⟩]⟩,
   ⟨"Core", "MIDIToCVInterface",
    [],
    [],
    [⟨0, .pitchVoct, .polyphonic⟩, ⟨1, .gate, .polyphonic⟩, ⟨2, .cvUnipolar, .polyphonic⟩,
     ⟨3, .cvUnipolar, .polyphonic⟩, ⟨4, .cvBipolar, .monophonic⟩, ⟨5, .cvUnipolar, .monophonic⟩,
     ⟨6, .trigger, .polyphonic⟩, ⟨7, .clock, .monophonic⟩, ⟨8, .clock, .monophonic⟩, ⟨9, .trigger, .monophonic⟩,
     ⟨10, .trigger, .monophonic⟩, ⟨11, .trigger, .monophonic⟩]⟩,
   ⟨"Fundamental", "VCO",
    [⟨0, none⟩, ⟨1, none⟩, ⟨2, none⟩, ⟨3, none⟩, ⟨4, none⟩, ⟨5, some (0.1, 0.9)⟩, ⟨6, none⟩, ⟨7, none⟩],
    [⟨0, .pitchVoct, .polyFromInput⟩, ⟨1, .cvBipolar, .polyFromInput⟩, ⟨2, .audio, .polyFromInput⟩,
     ⟨3, .cvBipolar, .polyFromInput⟩],
    [⟨0, .audio, .polyFromInput⟩, ⟨1, .audio, .polyFromInput⟩, ⟨2, .audio, .polyFromInput⟩,
     ⟨3, .audio, .polyFromInput⟩]⟩,
   ⟨"Fundamental", "VCF",
    [⟨0, none⟩, ⟨1, none⟩, ⟨2, some (0, 0.9)⟩, ⟨3, none⟩, ⟨4, none⟩, ⟨5, none⟩, ⟨6, none⟩],
    [⟨0, .cvBipolar, .polyFromInput⟩, ⟨1, .cvBipolar, .polyFromInput⟩, ⟨2, .cvBipolar, .polyFromInput⟩,
     ⟨3, .audio, .polyFromInput⟩],
    [⟨0, .audio, .polyFromInput⟩, ⟨1, .audio, .polyFromInput⟩]⟩,
   ⟨"Fundamental", "VCA-1",
    [⟨0, none⟩, ⟨1, none⟩],
    [⟨0, .cvUnipolar, .polyFromInput⟩, ⟨1, .audio, .polyFromInput⟩],
    [⟨0, .audio, .polyFromInput⟩]⟩,
   ⟨"Fundamental", "VCA",
    [⟨0, some (0, 1)⟩, ⟨1, some (0, 1)⟩],
    [⟨0, .cvUnipolar, .polyFromInput⟩, ⟨1, .cvUnipolar, .polyFromInput⟩, ⟨2, .audio, .polyFromInput⟩,
     ⟨3, .cvUnipolar, .polyFromInput⟩, ⟨4, .cvUnipolar, .polyFromInput⟩, ⟨5, .audio, .polyFromInput⟩],
    [⟨0, .audio, .polyFromInput⟩, ⟨1, .audio, .polyFromInput⟩]⟩,
   ⟨"Fundamental", "ADSR",
    [⟨0, some (0, 1)⟩, ⟨1, some (0, 1)⟩, ⟨2, some (0, 1)⟩, ⟨3, some (0, 1)⟩, ⟨4, some (-1, 1)⟩, ⟨5, some (-1, 1)⟩,
     ⟨6, some (-1, 1)⟩, ⟨7, some (-1, 1)⟩, ⟨8, some (0, 1)⟩],
    [⟨0, .cvBipolar, .polyFromInput⟩, ⟨1, .cvBipolar, .polyFromInput⟩, ⟨2, .cvBipolar, .polyFromInput⟩,
     ⟨3, .cvBipolar, .polyFromInput⟩, ⟨4, .gate, .polyFromInput⟩, ⟨5, .trigger, .polyFromInput⟩],
    [⟨0, .cvUnipolar, .polyFromInput⟩]⟩,
   ⟨"Fundamental", "LFO",
    [⟨0, none⟩, ⟨1, none⟩, ⟨2, some (-4, 6)⟩, ⟨3, none⟩, ⟨4, none⟩, ⟨5, some (0.1, 0.9)⟩, ⟨6, none⟩],
    [⟨0, .cvBipolar, .polyFromInput⟩, ⟨1, .unknown, .polyFromInput⟩, ⟨2, .trigger, .polyFromInput⟩,
     ⟨3, .cvBipolar, .polyFromInput⟩, ⟨4, .clock, .polyFromInput⟩],
    [⟨0, .cvUnipolar, .polyFromInput⟩, ⟨1, .cvUnipolar, .polyFromInput⟩, ⟨2, .cvUnipolar, .polyFromInput⟩,
     ⟨3, .cvUnipolar, .polyFromInput⟩]⟩,
   ⟨"Fundamental", "VCMixer",
    [⟨0, some (0, 2)⟩, ⟨1, some (0, 1.4142135381698608)⟩, ⟨2, some (0, 1.4142135381698608)⟩,
     ⟨3, some (0, 1.4142135381698608)⟩, ⟨4, some (0, 1.4142135381698608)⟩],
    [⟨0, .cvUnipolar, .polyFromInput⟩, ⟨1, .audio, .polyFromInput⟩, ⟨2, .audio, .polyFromInput⟩,
     ⟨3, .audio, .polyFromInput⟩, ⟨4, .audio, .polyFromInput⟩, ⟨5, .cvUnipolar, .polyFromInput⟩,
     ⟨6, .cvUnipolar, .polyFromInput⟩, ⟨7, .cvUnipolar, .polyFromInput⟩, ⟨8, .cvUnipolar, .polyFromInput⟩],
    [⟨0, .audio, .polyFromInput⟩, ⟨1, .audio, .polyFromInput⟩, ⟨2, .audio, .polyFromInput⟩,
     ⟨3, .audio, .polyFromInput⟩, ⟨4, .audio, .polyFromInput⟩]⟩,
   ⟨"Fundamental", "Mixer",
    [⟨0, some (0, 1)⟩],
    [⟨0, .audio, .polyFromInput⟩, ⟨1, .audio, .polyFromInput⟩, ⟨2, .audio, .polyFromInput⟩,
     ⟨3, .audio, .polyFromInput⟩, ⟨4, .audio, .polyFromInput⟩, ⟨5, .audio, .polyFromInput⟩],
    [⟨0, .audio, .polyFromInput⟩]⟩,
   ⟨"Fundamental", "Sum",
    [⟨0, some (0, 1)⟩],
    [⟨0, .audio, .polyphonic⟩],
    [⟨0, .audio, .monophonic⟩]⟩,
   ⟨"Fundamental", "Merge",
    [],
    [⟨0, .unknown, .monophonic⟩, ⟨1, .unknown, .monophonic⟩, ⟨2, .unknown, .monophonic⟩,
     ⟨3, .unknown, .monophonic⟩, ⟨4, .unknown, .monophonic⟩, ⟨5, .unknown, .monophonic⟩,
     ⟨6, .unknown, .monophonic⟩, ⟨7, .unknown, .monophonic⟩, ⟨8, .unknown, .monophonic⟩,
     ⟨9, .unknown, .monophonic⟩, ⟨10, .unknown, .monophonic⟩, ⟨11, .unknown, .monophonic⟩,
     ⟨12, .unknown, .monophonic⟩, ⟨13, .unknown, .monophonic⟩, ⟨14, .unknown, .monophonic⟩,
     ⟨15, .unknown, .monophonic⟩],
    [⟨0, .unknown, .polyphonic⟩]⟩,
   ⟨"Fundamental", "Split",
    [],
    [⟨0, .unknown, .polyphonic⟩],
    [⟨0, .unknown, .monophonic⟩, ⟨1, .unknown, .monophonic⟩, ⟨2, .unknown, .monophonic⟩,
     ⟨3, .unknown, .monophonic⟩, ⟨4, .unknown, .monophonic⟩, ⟨5, .unknown, .monophonic⟩,
     ⟨6, .unknown, .monophonic⟩, ⟨7, .unknown, .monophonic⟩, ⟨8, .unknown, .monophonic⟩,
     ⟨9, .unknown, .monophonic⟩, ⟨10, .unknown, .monophonic⟩, ⟨11, .unknown, .monophonic⟩,
     ⟨12, .unknown, .monophonic⟩, ⟨13, .unknown, .monophonic⟩, ⟨14, .unknown, .monophonic⟩,
     ⟨15, .unknown, .monophonic⟩]⟩,
   ⟨"Fundamental", "Octave",
    [⟨0, some (-4, 4)⟩],
    [⟨0, .pitchVoct, .polyFromInput⟩, ⟨1, .cvBipolar, .polyFromInput⟩],
    [⟨0, .pitchVoct, .polyFromInput⟩]⟩,
   ⟨"Fundamental", "8vert",
    [⟨0, some (-1, 1)⟩, ⟨1, some (-1, 1)⟩, ⟨2, some (-1, 1)⟩, ⟨3, some (-1, 1)⟩, ⟨4, some (-1, 1)⟩,
     ⟨5, some (-1, 1)⟩, ⟨6, some (-1, 1)⟩, ⟨7, some (-1, 1)⟩],
    [⟨0, .cvBipolar, .polyFromInput⟩, ⟨1, .cvBipolar, .polyFromInput⟩, ⟨2, .cvBipolar, .polyFromInput⟩,
     ⟨3, .cvBipolar, .polyFromInput⟩, ⟨4, .cvBipolar, .polyFromInput⟩, ⟨5, .cvBipolar, .polyFromInput⟩,
     ⟨6, .cvBipolar, .polyFromInput⟩, ⟨7, .cvBipolar, .polyFromInput⟩],
    [⟨0, .cvBipolar, .polyFromInput⟩, ⟨1, .cvBipolar, .polyFromInput⟩, ⟨2, .cvBipolar, .polyFromInput⟩,
     ⟨3, .cvBipolar, .polyFromInput⟩, ⟨4, .cvBipolar, .polyFromInput⟩, ⟨5, .cvBipolar, .polyFromInput⟩,
     ⟨6, .cvBipolar, .polyFromInput⟩, ⟨7, .cvBipolar, .polyFromInput⟩]⟩,
   ⟨"Fundamental", "Scope",
    [⟨0, some (0, 8)⟩, ⟨1, some (-10, 10)⟩, ⟨2, some (0, 8)⟩, ⟨3, some (-10, 10)⟩, ⟨4, none⟩, ⟨5, none⟩,
     ⟨6, some (-10, 10)⟩, ⟨7, none⟩],
    [⟨0, .unknown, .polyFromInput⟩, ⟨1, .unknown, .polyFromInput⟩, ⟨2, .trigger, .monophonic⟩],
    [⟨0, .unknown, .polyFromInput⟩, ⟨1, .unknown, .polyFromInput⟩]⟩,
   ⟨"Fundamental", "Noise",
    [],
    [],
    [⟨0, .audio, .monophonic⟩, ⟨1, .audio, .monophonic⟩, ⟨2, .audio, .monophonic⟩, ⟨3, .audio, .monophonic⟩,
     ⟨4, .audio, .monophonic⟩, ⟨5, .audio, .monophonic⟩, ⟨6, .audio, .monophonic⟩]⟩,
   ⟨"Fundamental", "Delay",
    [⟨0, some (0, 1)⟩, ⟨1, some (0, 0.85)⟩, ⟨2, none⟩, ⟨3, none⟩, ⟨4, none⟩, ⟨5, none⟩, ⟨6, none⟩, ⟨7, none⟩],
    [⟨0, .cvBipolar, .polyFromInput⟩, ⟨1, .cvBipolar, .polyFromInput⟩, ⟨2, .cvBipolar, .polyFromInput⟩,
     ⟨3, .cvBipolar, .polyFromInput⟩, ⟨4, .audio, .polyFromInput⟩, ⟨5, .clock, .monophonic⟩],
    [⟨0, .audio, .polyFromInput⟩, ⟨1, .audio, .polyFromInput⟩]⟩,
   ⟨"Fundamental", "SEQ3",
    [⟨0, none⟩, ⟨1, none⟩, ⟨2, none⟩, ⟨3, none⟩, ⟨4, none⟩, ⟨5, none⟩, ⟨6, none⟩, ⟨7, none⟩, ⟨8, none⟩, ⟨9, none⟩,
     ⟨10, none⟩, ⟨11, none⟩, ⟨12, none⟩, ⟨13, none⟩, ⟨14, none⟩, ⟨15, none⟩, ⟨16, none⟩, ⟨17, none⟩, ⟨18, none⟩,
     ⟨19, none⟩, ⟨20, none⟩, ⟨21, none⟩, ⟨22, none⟩, ⟨23, none⟩, ⟨24, none⟩, ⟨25, none⟩, ⟨26, none⟩, ⟨27, none⟩,
     ⟨28, none⟩, ⟨29, none⟩, ⟨30, none⟩, ⟨31, none⟩, ⟨32, none⟩, ⟨33, none⟩, ⟨34, none⟩, ⟨35, none⟩, ⟨36, none⟩,
     ⟨37, none⟩, ⟨38, none⟩],
    [⟨0, .cvBipolar, .monophonic⟩, ⟨1, .clock, .monophonic⟩, ⟨2, .trigger, .monophonic⟩,
     ⟨3, .cvUnipolar, .monophonic⟩, ⟨4, .trigger, .monophonic⟩],
    [⟨0, .trigger, .monophonic⟩, ⟨1, .cvBipolar, .monophonic⟩, ⟨2, .cvBipolar, .monophonic⟩,
     ⟨3, .cvBipolar, .monophonic⟩, ⟨4, .gate, .monophonic⟩, ⟨5, .gate, .monophonic⟩, ⟨6, .gate, .monophonic⟩,
     ⟨7, .gate, .monophonic⟩, ⟨8, .gate, .monophonic⟩, ⟨9, .gate, .monophonic⟩, ⟨10, .gate, .monophonic⟩,
     ⟨11, .gate, .monophonic⟩, ⟨12, .cvUnipolar, .monophonic⟩, ⟨13, .clock, .monophonic⟩, ⟨14, .gate, .monophonic⟩,
     ⟨15, .trigger, .monophonic⟩]⟩,
   ⟨"RackMCP", "Bridge",
    [⟨0, some (0, 1)⟩],
    [],
    []⟩,
   ⟨"RackMCP", "Probe",
    [],
    [⟨0, .unknown, .polyFromInput⟩, ⟨1, .unknown, .polyFromInput⟩, ⟨2, .unknown, .polyFromInput⟩,
     ⟨3, .unknown, .polyFromInput⟩, ⟨4, .unknown, .polyFromInput⟩, ⟨5, .unknown, .polyFromInput⟩,
     ⟨6, .unknown, .polyFromInput⟩, ⟨7, .unknown, .polyFromInput⟩],
    []⟩]

/-! ### Lookup -/

/-- `key`; the separator is a NUL. -/
def adapterKey (pluginSlug modelSlug : String) : String := pluginSlug ++ "\x00" ++ modelSlug

/-- `getAdapter`. -/
def getAdapter (pluginSlug modelSlug : String) : Option ModuleAdapter :=
  adapterDocs.find? fun a => adapterKey a.pluginSlug a.modelSlug == adapterKey pluginSlug modelSlug

/-- `hasAdapter`. -/
def hasAdapter (pluginSlug modelSlug : String) : Bool := (getAdapter pluginSlug modelSlug).isSome

/-- `paramSemantics`. -/
def paramSemantics (pluginSlug modelSlug : String) (paramId : ℤ) : Option AdapterParamSemantics :=
  (getAdapter pluginSlug modelSlug).bind fun a => a.params.find? (·.paramId == paramId)

-- the registry refuses to load with two documents for one model
example : (adapterDocs.map fun a => adapterKey a.pluginSlug a.modelSlug).Nodup := by decide

end RackMcp
