import PegMatch.Text.Ranges

set_option autoImplicit false

namespace PegMatch.Rune

def lowercases : List (Nat × Nat × Nat) := [
  (0x61, 0x7a, 0x1), (0xaa, 0xaa, 0x1), (0xb5, 0xb5, 0x1), (0xba, 0xba, 0x1),
  (0xdf, 0xf6, 0x1), (0xf8, 0xff, 0x1), (0x101, 0x137, 0x2), (0x138, 0x148, 0x2),
  (0x149, 0x177, 0x2), (0x17a, 0x17e, 0x2), (0x17f, 0x180, 0x1), (0x183, 0x185, 0x2),
  (0x188, 0x188, 0x1), (0x18c, 0x18d, 0x1), (0x192, 0x192, 0x1), (0x195, 0x195, 0x1),
  (0x199, 0x19b, 0x1), (0x19e, 0x19e, 0x1), (0x1a1, 0x1a5, 0x2), (0x1a8, 0x1aa, 0x2),
  (0x1ab, 0x1ad, 0x2), (0x1b0, 0x1b0, 0x1), (0x1b4, 0x1b6, 0x2), (0x1b9, 0x1ba, 0x1),
  (0x1bd, 0x1bf, 0x1), (0x1c6, 0x1c6, 0x1), (0x1c9, 0x1c9, 0x1), (0x1cc, 0x1dc, 0x2),
  (0x1dd, 0x1ef, 0x2), (0x1f0, 0x1f0, 0x1), (0x1f3, 0x1f5, 0x2), (0x1f9, 0x233, 0x2),
  (0x234, 0x239, 0x1), (0x23c, 0x23c, 0x1), (0x23f, 0x240, 0x1), (0x242, 0x242, 0x1),
  (0x247, 0x24f, 0x2), (0x250, 0x293, 0x1), (0x295, 0x2b8, 0x1), (0x2c0, 0x2c1, 0x1),
  (0x2e0, 0x2e4, 0x1), (0x345, 0x345, 0x1), (0x371, 0x373, 0x2), (0x377, 0x377, 0x1),
  (0x37a, 0x37d, 0x1), (0x390, 0x390, 0x1), (0x3ac, 0x3ce, 0x1), (0x3d0, 0x3d1, 0x1),
  (0x3d5, 0x3d7, 0x1), (0x3d9, 0x3ef, 0x2), (0x3f0, 0x3f3, 0x1), (0x3f5, 0x3f5, 0x1),
  (0x3f8, 0x3f8, 0x1), (0x3fb, 0x3fc, 0x1), (0x430, 0x45f, 0x1), (0x461, 0x481, 0x2),
  (0x48b, 0x4bf, 0x2), (0x4c2, 0x4ce, 0x2), (0x4cf, 0x52f, 0x2), (0x560, 0x588, 0x1),
  (0x10d0, 0x10fa, 0x1), (0x10fd, 0x10ff, 0x1), (0x13f8, 0x13fd, 0x1), (0x1c80, 0x1c88, 0x1),
  (0x1d00, 0x1dbf, 0x1), (0x1e01, 0x1e95, 0x2), (0x1e96, 0x1e9d, 0x1), (0x1e9f, 0x1eff, 0x2),
  (0x1f00, 0x1f07, 0x1), (0x1f10, 0x1f15, 0x1), (0x1f20, 0x1f27, 0x1), (0x1f30, 0x1f37, 0x1),
  (0x1f40, 0x1f45, 0x1), (0x1f50, 0x1f57, 0x1), (0x1f60, 0x1f67, 0x1), (0x1f70, 0x1f7d, 0x1),
  (0x1f80, 0x1f87, 0x1), (0x1f90, 0x1f97, 0x1), (0x1fa0, 0x1fa7, 0x1), (0x1fb0, 0x1fb4, 0x1),
  (0x1fb6, 0x1fb7, 0x1), (0x1fbe, 0x1fbe, 0x1), (0x1fc2, 0x1fc4, 0x1), (0x1fc6, 0x1fc7, 0x1),
  (0x1fd0, 0x1fd3, 0x1), (0x1fd6, 0x1fd7, 0x1), (0x1fe0, 0x1fe7, 0x1), (0x1ff2, 0x1ff4, 0x1),
  (0x1ff6, 0x1ff7, 0x1), (0x2071, 0x2071, 0x1), (0x207f, 0x207f, 0x1), (0x2090, 0x209c, 0x1),
  (0x210a, 0x210a, 0x1), (0x210e, 0x210f, 0x1), (0x2113, 0x2113, 0x1), (0x212f, 0x212f, 0x1),
  (0x2134, 0x2134, 0x1), (0x2139, 0x2139, 0x1), (0x213c, 0x213d, 0x1), (0x2146, 0x2149, 0x1),
  (0x214e, 0x214e, 0x1), (0x2170, 0x217f, 0x1), (0x2184, 0x2184, 0x1), (0x24d0, 0x24e9, 0x1),
  (0x2c30, 0x2c5f, 0x1), (0x2c61, 0x2c61, 0x1), (0x2c65, 0x2c66, 0x1), (0x2c68, 0x2c6c, 0x2),
  (0x2c71, 0x2c73, 0x2), (0x2c74, 0x2c76, 0x2), (0x2c77, 0x2c7d, 0x1), (0x2c81, 0x2ce3, 0x2),
  (0x2ce4, 0x2ce4, 0x1), (0x2cec, 0x2cee, 0x2), (0x2cf3, 0x2cf3, 0x1), (0x2d00, 0x2d25, 0x1),
  (0x2d27, 0x2d27, 0x1), (0x2d2d, 0x2d2d, 0x1), (0xa641, 0xa66d, 0x2), (0xa681, 0xa69b, 0x2),
  (0xa69c, 0xa69d, 0x1), (0xa723, 0xa72f, 0x2), (0xa730, 0xa731, 0x1), (0xa733, 0xa76f, 0x2),
  (0xa770, 0xa778, 0x1), (0xa77a, 0xa77c, 0x2), (0xa77f, 0xa787, 0x2), (0xa78c, 0xa78e, 0x2),
  (0xa791, 0xa793, 0x2), (0xa794, 0xa795, 0x1), (0xa797, 0xa7a9, 0x2), (0xa7af, 0xa7af, 0x1),
  (0xa7b5, 0xa7c3, 0x2), (0xa7c8, 0xa7ca, 0x2), (0xa7d1, 0xa7d9, 0x2), (0xa7f6, 0xa7f8, 0x2),
  (0xa7f9, 0xa7fa, 0x1), (0xab30, 0xab5a, 0x1), (0xab5c, 0xab68, 0x1), (0xab70, 0xabbf, 0x1),
  (0xfb00, 0xfb06, 0x1), (0xfb13, 0xfb17, 0x1), (0xff41, 0xff5a, 0x1), (0x10428, 0x1044f, 0x1),
  (0x104d8, 0x104fb, 0x1), (0x10597, 0x105a1, 0x1), (0x105a3, 0x105b1, 0x1),
  (0x105b3, 0x105b9, 0x1), (0x105bb, 0x105bc, 0x1), (0x10780, 0x10780, 0x1),
  (0x10783, 0x10785, 0x1), (0x10787, 0x107b0, 0x1), (0x107b2, 0x107ba, 0x1),
  (0x10cc0, 0x10cf2, 0x1), (0x118c0, 0x118df, 0x1), (0x16e60, 0x16e7f, 0x1),
  (0x1d41a, 0x1d433, 0x1), (0x1d44e, 0x1d454, 0x1), (0x1d456, 0x1d467, 0x1),
  (0x1d482, 0x1d49b, 0x1), (0x1d4b6, 0x1d4b9, 0x1), (0x1d4bb, 0x1d4bd, 0x2),
  (0x1d4be, 0x1d4c3, 0x1), (0x1d4c5, 0x1d4cf, 0x1), (0x1d4ea, 0x1d503, 0x1),
  (0x1d51e, 0x1d537, 0x1), (0x1d552, 0x1d56b, 0x1), (0x1d586, 0x1d59f, 0x1),
  (0x1d5ba, 0x1d5d3, 0x1), (0x1d5ee, 0x1d607, 0x1), (0x1d622, 0x1d63b, 0x1),
  (0x1d656, 0x1d66f, 0x1), (0x1d68a, 0x1d6a5, 0x1), (0x1d6c2, 0x1d6da, 0x1),
  (0x1d6dc, 0x1d6e1, 0x1), (0x1d6fc, 0x1d714, 0x1), (0x1d716, 0x1d71b, 0x1),
  (0x1d736, 0x1d74e, 0x1), (0x1d750, 0x1d755, 0x1), (0x1d770, 0x1d788, 0x1),
  (0x1d78a, 0x1d78f, 0x1), (0x1d7aa, 0x1d7c2, 0x1), (0x1d7c4, 0x1d7c9, 0x1),
  (0x1d7cb, 0x1d7cb, 0x1), (0x1df00, 0x1df09, 0x1), (0x1df0b, 0x1df1e, 0x1),
  (0x1e922, 0x1e943, 0x1)]

def isLowercase (c : Nat) : Bool :=
  inStrides lowercases c

end PegMatch.Rune
