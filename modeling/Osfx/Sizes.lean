/-!
# Bytes and size configurations

The byte strings of the code, and the limits `osfx_fusion_state.h` takes from the
build: the header defaults, and the values each file under `cmake/arch_presets`
defines instead.
-/

namespace Osfx

abbrev Bytes := List UInt8

/-- The bytes of a string of ASCII characters. -/
def ascii (s : String) : Bytes := s.toList.map fun ch => UInt8.ofNat ch.toNat

/-- The bytes in front of the first NUL. -/
def cString (text : Bytes) : Bytes := text.takeWhile fun b => b != 0

theorem cString_eq_self {text : Bytes} (h : 0 ∉ text) : cString text = text := by
  induction text with
  | nil => rfl
  | cons b text ih =>
    rw [List.mem_cons, not_or] at h
    have hrest := ih h.2
    have hb : (b != 0) = true := bne_iff_ne.mpr (Ne.symm h.1)
    rw [cString] at hrest
    simp only [cString, List.takeWhile_cons, hb, if_true, hrest]

theorem nul_not_mem_cString (text : Bytes) : 0 ∉ cString text := by
  intro hmem
  have hne := List.all_eq_true.mp List.all_takeWhile 0 hmem
  cases hne

/-- `copy_text`: what it writes to a buffer of `cap` bytes, if the text and its NUL fit. -/
def copyText (cap : Nat) (src : Bytes) : Option Bytes :=
  if cap < src.length + 1 then none else some src

theorem copyText_some {cap : Nat} {src text : Bytes} (h : copyText cap src = some text) :
    text = src ∧ src.length < cap := by
  unfold copyText at h
  split at h
  · cases h
  · cases h
    exact ⟨rfl, by omega⟩

theorem copyText_of_lt {cap : Nat} {src : Bytes} (h : src.length < cap) :
    copyText cap src = some src := by
  rw [copyText, if_neg (by omega)]

theorem copyText_of_le {cap : Nat} {src : Bytes} (h : cap ≤ src.length) :
    copyText cap src = none := by
  rw [copyText, if_pos (by omega)]

/-- `OSFX_FUSION_MAX_ENTRIES` ... `OSFX_FUSION_MAX_TAG_LEN`. -/
structure FusionSizes where
  maxEntries : Nat
  maxPrefix : Nat
  maxVals : Nat
  maxValLen : Nat
  maxSensors : Nat
  maxTagLen : Nat
  deriving DecidableEq, Repr

namespace FusionSizes

def headerDefault : FusionSizes := ⟨32, 64, 8, 16, 4, 12⟩

def avr2560 : FusionSizes := ⟨16, 24, 4, 12, 2, 8⟩
def avr328p : FusionSizes := ⟨8, 16, 2, 8, 1, 8⟩
def cortexm0plus : FusionSizes := ⟨32, 32, 4, 12, 4, 12⟩
def cortexm3 : FusionSizes := ⟨32, 32, 4, 12, 4, 12⟩
def cortexm33 : FusionSizes := ⟨64, 64, 8, 16, 8, 12⟩
def cortexm4 : FusionSizes := ⟨64, 64, 8, 16, 8, 12⟩
def cortexm7 : FusionSizes := ⟨128, 64, 16, 32, 16, 16⟩
def esp32 : FusionSizes := ⟨128, 64, 16, 32, 16, 16⟩
def riscv32 : FusionSizes := ⟨64, 64, 8, 16, 8, 12⟩
def x86_64 : FusionSizes := ⟨256, 64, 16, 32, 16, 16⟩

def archPresets : List FusionSizes :=
  [avr2560, avr328p, cortexm0plus, cortexm3, cortexm33, cortexm4, cortexm7, esp32, riscv32, x86_64]

/-- Every size configuration the repository ships. -/
def shipped : List FusionSizes := headerDefault :: archPresets

/-- The limits fit the fields that keep them: buffers are not empty, and a text length,
a sensor count and a slot count fit the `uint8_t` they are kept in. -/
structure FieldsFit (c : FusionSizes) : Prop where
  prefix_pos : 0 < c.maxPrefix
  valLen_pos : 0 < c.maxValLen
  tagLen_pos : 0 < c.maxTagLen
  valLen_le : c.maxValLen ≤ 256
  tagLen_le : c.maxTagLen ≤ 256
  sensors_le : c.maxSensors ≤ 127

/-- What all shipped limits have in common: they fit their fields, and there is a bit
of the `uint32_t` mask for every slot. -/
structure Small (c : FusionSizes) : Prop extends FieldsFit c where
  vals_le : c.maxVals ≤ 32

instance (c : FusionSizes) : Coe c.Small c.FieldsFit := ⟨Small.toFieldsFit⟩

theorem shipped_small {c : FusionSizes} (h : c ∈ shipped) : c.Small := by
  have all : ∀ c ∈ shipped, 0 < c.maxPrefix ∧ 0 < c.maxValLen ∧ 0 < c.maxTagLen ∧
      c.maxValLen ≤ 256 ∧ c.maxTagLen ≤ 256 ∧ c.maxSensors ≤ 127 ∧ c.maxVals ≤ 32 := by decide
  obtain ⟨h1, h2, h3, h4, h5, h6, h7⟩ := all c h
  exact ⟨⟨h1, h2, h3, h4, h5, h6⟩, h7⟩

end FusionSizes

end Osfx
