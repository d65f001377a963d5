import DemoReel.Settings.Basic

/-!
# The settings file to start from

A file that names every setting with its default, each commented out.
-/

namespace DemoReel.Settings

def exampleText : String :=
  "\n".intercalate [
    "# rush-demo configuration",
    "#",
    "# Every value below is the built-in default. Uncomment and edit to change.",
    "",
    "[playback]",
    "# Milliseconds per tick (50 = 20 FPS)",
    "# tick_ms = 50",
    "# Viewport size in pixels",
    "# viewport_width = 240",
    "# viewport_height = 320",
    "# Stage block edge length in pixels",
    "# block_size = 24",
    "",
    "[localization]",
    "# String table demo chat and hint text resolves against",
    "# table = \"lang.xx\"",
    "",
    "[decode]",
    "# Fail on opcodes this build does not know instead of keeping the",
    "# operations decoded so far",
    "# strict_opcodes = false",
    "# Fail on text fields that are not valid UTF-8",
    "# strict_text = true",
    "",
    "# Extra world bindings, or replacements for built-in ones (matched by demo_id).",
    "# [[worlds]]",
    "# demo_id = 10",
    "# world = 0",
    "# stage = 13",
    "# x = 31",
    "# y = 7",
    ""]

end DemoReel.Settings
