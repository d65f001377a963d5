import DemoReel.Settings.Basic
import DemoReel.Toml.Document

/-!
# Settings files

A settings file overrides what it names and leaves the rest as it is by default.  Names that are
not settings are ignored; a setting of a wrong kind, or out of range, spoils the whole file.
-/

namespace DemoReel

namespace Toml.Node

def boolean? : Node → Option Bool
  | .boolean value => some value
  | _ => none

def text? : Node → Option String
  | .text value => some value
  | _ => none

/-- An integer from zero up to, but without, `bound`. -/
def natural? (bound : Nat) : Node → Option Nat
  | .integer value => if 0 ≤ value ∧ value < bound then some value.toNat else none
  | _ => none

def uint8? (node : Node) : Option UInt8 := (node.natural? UInt8.size).map .ofNat

def uint16? (node : Node) : Option UInt16 := (node.natural? UInt16.size).map .ofNat

def uint32? (node : Node) : Option UInt32 := (node.natural? UInt32.size).map .ofNat

def uint64? (node : Node) : Option UInt64 := (node.natural? UInt64.size).map .ofNat

end Toml.Node

namespace Playback.Config

/-- Changes what a section names. -/
def override (config : Config) (node : Toml.Node) : Option Config := do
  let [tickMs, width, height, blockSize] ←
    node.fields? ["tick_ms", "viewport_width", "viewport_height", "block_size"] | none
  return {
    tickMs := (← tickMs.mapM (·.uint64?)).getD config.tickMs
    viewportWidth := (← width.mapM (·.uint32?)).getD config.viewportWidth
    viewportHeight := (← height.mapM (·.uint32?)).getD config.viewportHeight
    blockSize := (← blockSize.mapM (·.uint32?)).getD config.blockSize }

end Playback.Config

namespace DecodeOptions

/-- Changes what a section names. -/
def override (options : DecodeOptions) (node : Toml.Node) : Option DecodeOptions := do
  let [opcodes, text] ← node.fields? ["strict_opcodes", "strict_text"] | none
  return {
    strictOpcodes := (← opcodes.mapM (·.boolean?)).getD options.strictOpcodes
    strictText := (← text.mapM (·.boolean?)).getD options.strictText }

end DecodeOptions

/-- A placement, of which nothing may be missing. -/
def WorldBinding.ofNode? (node : Toml.Node) : Option WorldBinding := do
  let [some demoId, some world, some stage, some x, some y] ←
    node.fields? ["demo_id", "world", "stage", "x", "y"] | none
  return ⟨← demoId.uint16?, ← world.uint8?, ← stage.uint8?, ← x.uint16?, ← y.uint16?⟩

namespace Settings

/-- Changes the name of the string table, if the section gives one. -/
def overrideTable (table : String) (node : Toml.Node) : Option String := do
  let [name] ← node.fields? ["table"] | none
  return (← name.mapM (·.text?)).getD table

def ofEntries? (root : Toml.Entries) : Option Settings := do
  let usual : Settings := {}
  let override {α : Type} (name : String) (change : α → Toml.Node → Option α) (value : α) :
      Option α :=
    (root.lookup name).elim (some value) (change value)
  return {
    playback := ← override "playback" Playback.Config.override usual.playback
    localizationTable := ← override "localization" overrideTable usual.localizationTable
    decode := ← override "decode" DecodeOptions.override usual.decode
    worldBindings := ← override "worlds"
      (fun bindings node ↦ do return bindings.merge (← (← node.items?).mapM WorldBinding.ofNode?))
      usual.worldBindings }

/-- The settings that a file of this text asks for. -/
def ofToml? (text : String) : Option Settings := do ofEntries? (← Toml.parse? text)

end Settings

end DemoReel
