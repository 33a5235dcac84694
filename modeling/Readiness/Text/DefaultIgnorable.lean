import Readiness.Text.CodeRanges

/-! Characters that are not drawn where they have no effect, by a property of Unicode 17.0. -/

namespace Readiness

/-- The characters with the property Default_Ignorable_Code_Point, such as joiners and fillers. -/
def defaultIgnorable : CodeRanges :=
  [(0xad, 0xad), (0x34f, 0x34f), (0x61c, 0x61c), (0x115f, 0x1160), (0x17b4, 0x17b5),
    (0x180b, 0x180f), (0x200b, 0x200f), (0x202a, 0x202e), (0x2060, 0x206f), (0x3164, 0x3164),
    (0xfe00, 0xfe0f), (0xfeff, 0xfeff), (0xffa0, 0xffa0), (0xfff0, 0xfff8), (0x1bca0, 0x1bca3),
    (0x1d173, 0x1d17a), (0xe0000, 0xe0fff)]

end Readiness
