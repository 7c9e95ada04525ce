import RustAdmin.Keyboard.Intent

/-!
# Names of keys

The legacy protocol names its keys.  A key that neither table knows goes by the
name of its event, if that has one.
-/

namespace RustAdmin.Keyboard

open RustAdmin.Support

def HidKey.flutterUsage (key : HidKey) : ℕ := (key.usagePage <<< 16) ||| key.usage

def canonicalLegacyKeyNamesByFlutterUsage : List (ℕ × String) :=
  [(0x00070046, "VK_SNAPSHOT"), (0x00070047, "VK_SCROLL"), (0x00070048, "VK_PAUSE"),
    (0x00070065, "Apps"), (0x0007009b, "VK_CANCEL")]

def physicalKeyMap : List (ℕ × String) :=
  [(0x00010082, "VK_SLEEP"), (0x00070004, "VK_A"), (0x00070005, "VK_B"), (0x00070006, "VK_C"),
    (0x00070007, "VK_D"), (0x00070008, "VK_E"), (0x00070009, "VK_F"), (0x0007000a, "VK_G"),
    (0x0007000b, "VK_H"), (0x0007000c, "VK_I"), (0x0007000d, "VK_J"), (0x0007000e, "VK_K"),
    (0x0007000f, "VK_L"), (0x00070010, "VK_M"), (0x00070011, "VK_N"), (0x00070012, "VK_O"),
    (0x00070013, "VK_P"), (0x00070014, "VK_Q"), (0x00070015, "VK_R"), (0x00070016, "VK_S"),
    (0x00070017, "VK_T"), (0x00070018, "VK_U"), (0x00070019, "VK_V"), (0x0007001a, "VK_W"),
    (0x0007001b, "VK_X"), (0x0007001c, "VK_Y"), (0x0007001d, "VK_Z"), (0x0007001e, "VK_1"),
    (0x0007001f, "VK_2"), (0x00070020, "VK_3"), (0x00070021, "VK_4"), (0x00070022, "VK_5"),
    (0x00070023, "VK_6"), (0x00070024, "VK_7"), (0x00070025, "VK_8"), (0x00070026, "VK_9"),
    (0x00070027, "VK_0"), (0x00070028, "VK_ENTER"), (0x00070029, "VK_ESCAPE"),
    (0x0007002a, "VK_BACK"), (0x0007002b, "VK_TAB"), (0x0007002c, "VK_SPACE"),
    (0x0007002d, "VK_MINUS"), (0x0007002e, "VK_PLUS"), (0x0007002f, "VK_LBRACKET"),
    (0x00070030, "VK_RBRACKET"), (0x00070033, "VK_SEMICOLON"), (0x00070034, "VK_QUOTE"),
    (0x00070036, "VK_COMMA"), (0x00070038, "VK_SLASH"), (0x00070039, "VK_CAPITAL"),
    (0x0007003a, "VK_F1"), (0x0007003b, "VK_F2"), (0x0007003c, "VK_F3"), (0x0007003d, "VK_F4"),
    (0x0007003e, "VK_F5"), (0x0007003f, "VK_F6"), (0x00070040, "VK_F7"), (0x00070041, "VK_F8"),
    (0x00070042, "VK_F9"), (0x00070043, "VK_F10"), (0x00070044, "VK_F11"),
    (0x00070045, "VK_F12"), (0x00070049, "VK_INSERT"), (0x0007004a, "VK_HOME"),
    (0x0007004b, "VK_PRIOR"), (0x0007004c, "VK_DELETE"), (0x0007004d, "VK_END"),
    (0x0007004e, "VK_NEXT"), (0x0007004f, "VK_RIGHT"), (0x00070050, "VK_LEFT"),
    (0x00070051, "VK_DOWN"), (0x00070052, "VK_UP"), (0x00070053, "Num Lock"),
    (0x00070054, "VK_DIVIDE"), (0x00070055, "VK_MULTIPLY"), (0x00070056, "VK_SUBTRACT"),
    (0x00070057, "VK_ADD"), (0x00070058, "VK_ENTER"), (0x00070059, "VK_NUMPAD1"),
    (0x0007005a, "VK_NUMPAD2"), (0x0007005b, "VK_NUMPAD3"), (0x0007005c, "VK_NUMPAD4"),
    (0x0007005d, "VK_NUMPAD5"), (0x0007005e, "VK_NUMPAD6"), (0x0007005f, "VK_NUMPAD7"),
    (0x00070060, "VK_NUMPAD8"), (0x00070061, "VK_NUMPAD9"), (0x00070062, "VK_NUMPAD0"),
    (0x00070063, "VK_DECIMAL"), (0x00070075, "VK_HELP"), (0x00070077, "VK_SELECT"),
    (0x00070088, "VK_KANA"), (0x0007008a, "VK_CONVERT"), (0x000700e0, "VK_CONTROL"),
    (0x000700e1, "VK_SHIFT"), (0x000700e2, "VK_MENU"), (0x000700e3, "Meta"),
    (0x000700e4, "RControl"), (0x000700e5, "RShift"), (0x000700e6, "RAlt"), (0x000700e7, "RWin"),
    (0x000c00b1, "VK_PAUSE"), (0x000c00cd, "VK_PAUSE"), (0x000c019e, "LOCK_SCREEN"),
    (0x000c0208, "VK_PRINT")]

def dartString (text : String) : DartString := encodeUtf16 text.toList

/-- The name under which a key is sent, with the name its event gives it. -/
def legacyNameOf (key : HidKey) (legacyName : Option DartString) : Option DartString :=
  ((physicalKeyMap.lookup key.flutterUsage).map dartString).or
    (((canonicalLegacyKeyNamesByFlutterUsage.lookup key.flutterUsage).map dartString).or legacyName)

/-- The first table knows the modifiers. -/
theorem isSome_lookup_modifier {key : HidKey} (hmodifier : key.isModifier = true) :
    (physicalKeyMap.lookup key.flutterUsage).isSome = true := by
  obtain ⟨usagePage, usage⟩ := key
  unfold HidKey.isModifier HidKey.modifier at hmodifier
  dsimp only at hmodifier
  split_ifs at hmodifier with hpage
  · subst hpage
    split at hmodifier
    all_goals first | decide | cases hmodifier
  · cases hmodifier

theorem isSome_legacyNameOf_modifier {key : HidKey} (hmodifier : key.isModifier = true)
    (legacyName : Option DartString) : (legacyNameOf key legacyName).isSome = true := by
  obtain ⟨name, hname⟩ := Option.isSome_iff_exists.mp (isSome_lookup_modifier hmodifier)
  rw [legacyNameOf, hname]
  rfl

end RustAdmin.Keyboard
