import CodeSmell.Text.Category.Basic

/-!
# The classes of all code points

The runs of `categoryRuns` are in increasing order and leave no gap: each ends where the next
begins.
-/

namespace CodeSmell.Text
open Run

def runsFrom0000 : List Run := [
  hidden 0x0, graphic 0x20, digit 0x30, graphic 0x3A, upper 0x41, graphic 0x5B, connector 0x5F,
  graphic 0x60, lower 0x61, graphic 0x7B, hidden 0x7F, graphic 0xA1, letter 0xAA, graphic 0xAB,
  hidden 0xAD, graphic 0xAE, lower 0xB5, graphic 0xB6, letter 0xBA, graphic 0xBB, upper 0xC0,
  graphic 0xD7, upper 0xD8, lower 0xDF, graphic 0xF7, lower 0xF8, upperLower 0x100, lower 0x137,
  upperLower 0x139, lower 0x148, upperLower 0x14A, upper 0x178, lowerUpper 0x17A, lower 0x17E,
  upper 0x181, lowerUpper 0x183, upper 0x186, lower 0x188, upper 0x189, lower 0x18C, upper 0x18E,
  lower 0x192, upper 0x193, lower 0x195, upper 0x196, lower 0x199, upper 0x19C, lower 0x19E,
  upper 0x19F, lowerUpper 0x1A1, upper 0x1A6, lower 0x1A8, upper 0x1A9, lower 0x1AA, upper 0x1AC,
  lower 0x1AD, upper 0x1AE, lower 0x1B0, upper 0x1B1, lowerUpper 0x1B4, upper 0x1B7, lower 0x1B9,
  letter 0x1BB, upper 0x1BC, lower 0x1BD, letter 0x1C0, upper 0x1C4, letter 0x1C5, lower 0x1C6,
  upper 0x1C7, letter 0x1C8, lower 0x1C9, upper 0x1CA, letter 0x1CB, lowerUpper 0x1CC,
  lower 0x1DC, upperLower 0x1DE, lower 0x1EF, upper 0x1F1, letter 0x1F2, lowerUpper 0x1F3,
  upper 0x1F6, lowerUpper 0x1F9, lower 0x233, upper 0x23A, lower 0x23C, upper 0x23D, lower 0x23F,
  upper 0x241, lower 0x242, upper 0x243, lowerUpper 0x247, lower 0x24F, letter 0x294, lower 0x296,
  letter 0x2B0, graphic 0x2C2, letter 0x2C6, graphic 0x2D2, letter 0x2E0, graphic 0x2E5,
  letter 0x2EC, graphic 0x2ED, letter 0x2EE, graphic 0x2EF, extending 0x300, upperLower 0x370,
  letter 0x374, graphic 0x375, upper 0x376, lower 0x377, hidden 0x378, letter 0x37A, lower 0x37B,
  graphic 0x37E, upper 0x37F, hidden 0x380, graphic 0x384, upper 0x386, graphic 0x387,
  upper 0x388, hidden 0x38B, upper 0x38C, hidden 0x38D, upper 0x38E, lower 0x390, upper 0x391,
  hidden 0x3A2, upper 0x3A3, lower 0x3AC]

def runsFrom03CF : List Run := [
  upper 0x3CF, lower 0x3D0, upper 0x3D2, lower 0x3D5, upperLower 0x3D8, lower 0x3EF, upper 0x3F4,
  lower 0x3F5, graphic 0x3F6, upper 0x3F7, lower 0x3F8, upper 0x3F9, lower 0x3FB, upper 0x3FD,
  lower 0x430, upperLower 0x460, graphic 0x482, extending 0x483, upperLower 0x48A, upper 0x4C0,
  lowerUpper 0x4C2, lower 0x4CE, upperLower 0x4D0, hidden 0x530, upper 0x531, hidden 0x557,
  letter 0x559, graphic 0x55A, lower 0x560, graphic 0x589, hidden 0x58B, graphic 0x58D,
  hidden 0x590, extending 0x591, graphic 0x5BE, extending 0x5BF, graphic 0x5C0, extending 0x5C1,
  graphic 0x5C3, extending 0x5C4, graphic 0x5C6, extending 0x5C7, hidden 0x5C8, letter 0x5D0,
  hidden 0x5EB, letter 0x5EF, graphic 0x5F3, hidden 0x5F5, graphic 0x606, extending 0x610,
  graphic 0x61B, hidden 0x61C, graphic 0x61D, letter 0x620, extending 0x64B, digit 0x660,
  graphic 0x66A, letter 0x66E, extending 0x670, letter 0x671, graphic 0x6D4, letter 0x6D5,
  extending 0x6D6, hidden 0x6DD, graphic 0x6DE, extending 0x6DF, letter 0x6E5, extending 0x6E7,
  graphic 0x6E9, extending 0x6EA, letter 0x6EE, digit 0x6F0, letter 0x6FA, graphic 0x6FD,
  letter 0x6FF, graphic 0x700, hidden 0x70E, letter 0x710, extending 0x711, letter 0x712,
  extending 0x730, hidden 0x74B, letter 0x74D, extending 0x7A6, letter 0x7B1, hidden 0x7B2,
  digit 0x7C0, letter 0x7CA, extending 0x7EB, letter 0x7F4, graphic 0x7F6, letter 0x7FA,
  hidden 0x7FB, extending 0x7FD, graphic 0x7FE, letter 0x800, extending 0x816, letter 0x81A,
  extending 0x81B, letter 0x824, extending 0x825, letter 0x828, extending 0x829, hidden 0x82E,
  graphic 0x830, hidden 0x83F, letter 0x840, extending 0x859, hidden 0x85C, graphic 0x85E,
  hidden 0x85F, letter 0x860, hidden 0x86B, letter 0x870, graphic 0x888, letter 0x889,
  hidden 0x890, extending 0x897, letter 0x8A0, extending 0x8CA, hidden 0x8E2, extending 0x8E3,
  mark 0x903, letter 0x904, extending 0x93A, mark 0x93B, extending 0x93C, letter 0x93D,
  mark 0x93E, extending 0x941]

def runsFrom0949 : List Run := [
  mark 0x949, extending 0x94D, mark 0x94E, letter 0x950, extending 0x951, letter 0x958,
  extending 0x962, graphic 0x964, digit 0x966, graphic 0x970, letter 0x971, extending 0x981,
  mark 0x982, hidden 0x984, letter 0x985, hidden 0x98D, letter 0x98F, hidden 0x991, letter 0x993,
  hidden 0x9A9, letter 0x9AA, hidden 0x9B1, letter 0x9B2, hidden 0x9B3, letter 0x9B6,
  hidden 0x9BA, extending 0x9BC, letter 0x9BD, extending 0x9BE, mark 0x9BF, extending 0x9C1,
  hidden 0x9C5, mark 0x9C7, hidden 0x9C9, mark 0x9CB, extending 0x9CD, letter 0x9CE, hidden 0x9CF,
  extending 0x9D7, hidden 0x9D8, letter 0x9DC, hidden 0x9DE, letter 0x9DF, extending 0x9E2,
  hidden 0x9E4, digit 0x9E6, letter 0x9F0, graphic 0x9F2, letter 0x9FC, graphic 0x9FD,
  extending 0x9FE, hidden 0x9FF, extending 0xA01, mark 0xA03, hidden 0xA04, letter 0xA05,
  hidden 0xA0B, letter 0xA0F, hidden 0xA11, letter 0xA13, hidden 0xA29, letter 0xA2A,
  hidden 0xA31, letter 0xA32, hidden 0xA34, letter 0xA35, hidden 0xA37, letter 0xA38,
  hidden 0xA3A, extending 0xA3C, hidden 0xA3D, mark 0xA3E, extending 0xA41, hidden 0xA43,
  extending 0xA47, hidden 0xA49, extending 0xA4B, hidden 0xA4E, extending 0xA51, hidden 0xA52,
  letter 0xA59, hidden 0xA5D, letter 0xA5E, hidden 0xA5F, digit 0xA66, extending 0xA70,
  letter 0xA72, extending 0xA75, graphic 0xA76, hidden 0xA77, extending 0xA81, mark 0xA83,
  hidden 0xA84, letter 0xA85, hidden 0xA8E, letter 0xA8F, hidden 0xA92, letter 0xA93,
  hidden 0xAA9, letter 0xAAA, hidden 0xAB1, letter 0xAB2, hidden 0xAB4, letter 0xAB5,
  hidden 0xABA, extending 0xABC, letter 0xABD, mark 0xABE, extending 0xAC1, hidden 0xAC6,
  extending 0xAC7, mark 0xAC9, hidden 0xACA, mark 0xACB, extending 0xACD, hidden 0xACE,
  letter 0xAD0, hidden 0xAD1, letter 0xAE0, extending 0xAE2, hidden 0xAE4, digit 0xAE6,
  graphic 0xAF0, hidden 0xAF2, letter 0xAF9, extending 0xAFA, hidden 0xB00, extending 0xB01,
  mark 0xB02, hidden 0xB04]

def runsFrom0B05 : List Run := [
  letter 0xB05, hidden 0xB0D, letter 0xB0F, hidden 0xB11, letter 0xB13, hidden 0xB29,
  letter 0xB2A, hidden 0xB31, letter 0xB32, hidden 0xB34, letter 0xB35, hidden 0xB3A,
  extending 0xB3C, letter 0xB3D, extending 0xB3E, mark 0xB40, extending 0xB41, hidden 0xB45,
  mark 0xB47, hidden 0xB49, mark 0xB4B, extending 0xB4D, hidden 0xB4E, extending 0xB55,
  hidden 0xB58, letter 0xB5C, hidden 0xB5E, letter 0xB5F, extending 0xB62, hidden 0xB64,
  digit 0xB66, graphic 0xB70, letter 0xB71, graphic 0xB72, hidden 0xB78, extending 0xB82,
  letter 0xB83, hidden 0xB84, letter 0xB85, hidden 0xB8B, letter 0xB8E, hidden 0xB91,
  letter 0xB92, hidden 0xB96, letter 0xB99, hidden 0xB9B, letter 0xB9C, hidden 0xB9D,
  letter 0xB9E, hidden 0xBA0, letter 0xBA3, hidden 0xBA5, letter 0xBA8, hidden 0xBAB,
  letter 0xBAE, hidden 0xBBA, extending 0xBBE, mark 0xBBF, extending 0xBC0, mark 0xBC1,
  hidden 0xBC3, mark 0xBC6, hidden 0xBC9, mark 0xBCA, extending 0xBCD, hidden 0xBCE, letter 0xBD0,
  hidden 0xBD1, extending 0xBD7, hidden 0xBD8, digit 0xBE6, graphic 0xBF0, hidden 0xBFB,
  extending 0xC00, mark 0xC01, extending 0xC04, letter 0xC05, hidden 0xC0D, letter 0xC0E,
  hidden 0xC11, letter 0xC12, hidden 0xC29, letter 0xC2A, hidden 0xC3A, extending 0xC3C,
  letter 0xC3D, extending 0xC3E, mark 0xC41, hidden 0xC45, extending 0xC46, hidden 0xC49,
  extending 0xC4A, hidden 0xC4E, extending 0xC55, hidden 0xC57, letter 0xC58, hidden 0xC5B,
  letter 0xC5C, hidden 0xC5E, letter 0xC60, extending 0xC62, hidden 0xC64, digit 0xC66,
  hidden 0xC70, graphic 0xC77, letter 0xC80, extending 0xC81, mark 0xC82, graphic 0xC84,
  letter 0xC85, hidden 0xC8D, letter 0xC8E, hidden 0xC91, letter 0xC92, hidden 0xCA9,
  letter 0xCAA, hidden 0xCB4, letter 0xCB5, hidden 0xCBA, extending 0xCBC, letter 0xCBD,
  mark 0xCBE, extending 0xCBF, mark 0xCC1, extending 0xCC2, mark 0xCC3, hidden 0xCC5,
  extending 0xCC6, hidden 0xCC9, extending 0xCCA]

def runsFrom0CCE : List Run := [
  hidden 0xCCE, extending 0xCD5, hidden 0xCD7, letter 0xCDC, hidden 0xCDF, letter 0xCE0,
  extending 0xCE2, hidden 0xCE4, digit 0xCE6, hidden 0xCF0, letter 0xCF1, mark 0xCF3,
  hidden 0xCF4, extending 0xD00, mark 0xD02, letter 0xD04, hidden 0xD0D, letter 0xD0E,
  hidden 0xD11, letter 0xD12, extending 0xD3B, letter 0xD3D, extending 0xD3E, mark 0xD3F,
  extending 0xD41, hidden 0xD45, mark 0xD46, hidden 0xD49, mark 0xD4A, extending 0xD4D,
  letter 0xD4E, graphic 0xD4F, hidden 0xD50, letter 0xD54, extending 0xD57, graphic 0xD58,
  letter 0xD5F, extending 0xD62, hidden 0xD64, digit 0xD66, graphic 0xD70, letter 0xD7A,
  hidden 0xD80, extending 0xD81, mark 0xD82, hidden 0xD84, letter 0xD85, hidden 0xD97,
  letter 0xD9A, hidden 0xDB2, letter 0xDB3, hidden 0xDBC, letter 0xDBD, hidden 0xDBE,
  letter 0xDC0, hidden 0xDC7, extending 0xDCA, hidden 0xDCB, extending 0xDCF, mark 0xDD0,
  extending 0xDD2, hidden 0xDD5, extending 0xDD6, hidden 0xDD7, mark 0xDD8, extending 0xDDF,
  hidden 0xDE0, digit 0xDE6, hidden 0xDF0, mark 0xDF2, graphic 0xDF4, hidden 0xDF5, letter 0xE01,
  extending 0xE31, letter 0xE32, extending 0xE34, hidden 0xE3B, graphic 0xE3F, letter 0xE40,
  extending 0xE47, graphic 0xE4F, digit 0xE50, graphic 0xE5A, hidden 0xE5C, letter 0xE81,
  hidden 0xE83, letter 0xE84, hidden 0xE85, letter 0xE86, hidden 0xE8B, letter 0xE8C,
  hidden 0xEA4, letter 0xEA5, hidden 0xEA6, letter 0xEA7, extending 0xEB1, letter 0xEB2,
  extending 0xEB4, letter 0xEBD, hidden 0xEBE, letter 0xEC0, hidden 0xEC5, letter 0xEC6,
  hidden 0xEC7, extending 0xEC8, hidden 0xECF, digit 0xED0, hidden 0xEDA, letter 0xEDC,
  hidden 0xEE0, letter 0xF00, graphic 0xF01, extending 0xF18, graphic 0xF1A, digit 0xF20,
  graphic 0xF2A, extending 0xF35, graphic 0xF36, extending 0xF37, graphic 0xF38, extending 0xF39,
  graphic 0xF3A, mark 0xF3E, letter 0xF40, hidden 0xF48, letter 0xF49, hidden 0xF6D,
  extending 0xF71, mark 0xF7F, extending 0xF80]

def runsFrom0F85 : List Run := [
  graphic 0xF85, extending 0xF86, letter 0xF88, extending 0xF8D, hidden 0xF98, extending 0xF99,
  hidden 0xFBD, graphic 0xFBE, extending 0xFC6, graphic 0xFC7, hidden 0xFCD, graphic 0xFCE,
  hidden 0xFDB, letter 0x1000, mark 0x102B, extending 0x102D, mark 0x1031, extending 0x1032,
  mark 0x1038, extending 0x1039, mark 0x103B, extending 0x103D, letter 0x103F, digit 0x1040,
  graphic 0x104A, letter 0x1050, mark 0x1056, extending 0x1058, letter 0x105A, extending 0x105E,
  letter 0x1061, mark 0x1062, letter 0x1065, mark 0x1067, letter 0x106E, extending 0x1071,
  letter 0x1075, extending 0x1082, mark 0x1083, extending 0x1085, mark 0x1087, extending 0x108D,
  letter 0x108E, mark 0x108F, digit 0x1090, mark 0x109A, extending 0x109D, graphic 0x109E,
  upper 0x10A0, hidden 0x10C6, upper 0x10C7, hidden 0x10C8, upper 0x10CD, hidden 0x10CE,
  lower 0x10D0, graphic 0x10FB, letter 0x10FC, lower 0x10FD, letter 0x1100, hidden 0x1249,
  letter 0x124A, hidden 0x124E, letter 0x1250, hidden 0x1257, letter 0x1258, hidden 0x1259,
  letter 0x125A, hidden 0x125E, letter 0x1260, hidden 0x1289, letter 0x128A, hidden 0x128E,
  letter 0x1290, hidden 0x12B1, letter 0x12B2, hidden 0x12B6, letter 0x12B8, hidden 0x12BF,
  letter 0x12C0, hidden 0x12C1, letter 0x12C2, hidden 0x12C6, letter 0x12C8, hidden 0x12D7,
  letter 0x12D8, hidden 0x1311, letter 0x1312, hidden 0x1316, letter 0x1318, hidden 0x135B,
  extending 0x135D, graphic 0x1360, hidden 0x137D, letter 0x1380, graphic 0x1390, hidden 0x139A,
  upper 0x13A0, hidden 0x13F6, lower 0x13F8, hidden 0x13FE, graphic 0x1400, letter 0x1401,
  graphic 0x166D, letter 0x166F, hidden 0x1680, letter 0x1681, graphic 0x169B, hidden 0x169D,
  letter 0x16A0, graphic 0x16EB, letter 0x16F1, hidden 0x16F9, letter 0x1700, extending 0x1712,
  hidden 0x1716, letter 0x171F, extending 0x1732, graphic 0x1735, hidden 0x1737, letter 0x1740,
  extending 0x1752, hidden 0x1754, letter 0x1760, hidden 0x176D, letter 0x176E, hidden 0x1771,
  extending 0x1772, hidden 0x1774, letter 0x1780, extending 0x17B4]

def runsFrom17B6 : List Run := [
  mark 0x17B6, extending 0x17B7, mark 0x17BE, extending 0x17C6, mark 0x17C7, extending 0x17C9,
  graphic 0x17D4, letter 0x17D7, graphic 0x17D8, letter 0x17DC, extending 0x17DD, hidden 0x17DE,
  digit 0x17E0, hidden 0x17EA, graphic 0x17F0, hidden 0x17FA, graphic 0x1800, extending 0x180B,
  hidden 0x180E, extending 0x180F, digit 0x1810, hidden 0x181A, letter 0x1820, hidden 0x1879,
  letter 0x1880, extending 0x1885, letter 0x1887, extending 0x18A9, letter 0x18AA, hidden 0x18AB,
  letter 0x18B0, hidden 0x18F6, letter 0x1900, hidden 0x191F, extending 0x1920, mark 0x1923,
  extending 0x1927, mark 0x1929, hidden 0x192C, mark 0x1930, extending 0x1932, mark 0x1933,
  extending 0x1939, hidden 0x193C, graphic 0x1940, hidden 0x1941, graphic 0x1944, digit 0x1946,
  letter 0x1950, hidden 0x196E, letter 0x1970, hidden 0x1975, letter 0x1980, hidden 0x19AC,
  letter 0x19B0, hidden 0x19CA, digit 0x19D0, graphic 0x19DA, hidden 0x19DB, graphic 0x19DE,
  letter 0x1A00, extending 0x1A17, mark 0x1A19, extending 0x1A1B, hidden 0x1A1C, graphic 0x1A1E,
  letter 0x1A20, mark 0x1A55, extending 0x1A56, mark 0x1A57, extending 0x1A58, hidden 0x1A5F,
  extending 0x1A60, mark 0x1A61, extending 0x1A62, mark 0x1A63, extending 0x1A65, mark 0x1A6D,
  extending 0x1A73, hidden 0x1A7D, extending 0x1A7F, digit 0x1A80, hidden 0x1A8A, digit 0x1A90,
  hidden 0x1A9A, graphic 0x1AA0, letter 0x1AA7, graphic 0x1AA8, hidden 0x1AAE, extending 0x1AB0,
  hidden 0x1ADE, extending 0x1AE0, hidden 0x1AEC, extending 0x1B00, mark 0x1B04, letter 0x1B05,
  extending 0x1B34, mark 0x1B3E, extending 0x1B42, letter 0x1B45, hidden 0x1B4D, graphic 0x1B4E,
  digit 0x1B50, graphic 0x1B5A, extending 0x1B6B, graphic 0x1B74, extending 0x1B80, mark 0x1B82,
  letter 0x1B83, mark 0x1BA1, extending 0x1BA2, mark 0x1BA6, extending 0x1BA8, letter 0x1BAE,
  digit 0x1BB0, letter 0x1BBA, extending 0x1BE6, mark 0x1BE7, extending 0x1BE8, mark 0x1BEA,
  extending 0x1BED, mark 0x1BEE, extending 0x1BEF, hidden 0x1BF4, graphic 0x1BFC, letter 0x1C00,
  mark 0x1C24, extending 0x1C2C, mark 0x1C34, extending 0x1C36]

def runsFrom1C38 : List Run := [
  hidden 0x1C38, graphic 0x1C3B, digit 0x1C40, hidden 0x1C4A, letter 0x1C4D, digit 0x1C50,
  letter 0x1C5A, graphic 0x1C7E, lower 0x1C80, upper 0x1C89, lower 0x1C8A, hidden 0x1C8B,
  upper 0x1C90, hidden 0x1CBB, upper 0x1CBD, graphic 0x1CC0, hidden 0x1CC8, extending 0x1CD0,
  graphic 0x1CD3, extending 0x1CD4, mark 0x1CE1, extending 0x1CE2, letter 0x1CE9,
  extending 0x1CED, letter 0x1CEE, extending 0x1CF4, letter 0x1CF5, mark 0x1CF7, extending 0x1CF8,
  letter 0x1CFA, hidden 0x1CFB, lower 0x1D00, letter 0x1D2C, lower 0x1D6B, letter 0x1D78,
  lower 0x1D79, letter 0x1D9B, extending 0x1DC0, upperLower 0x1E00, lower 0x1E95,
  upperLower 0x1E9E, lower 0x1EFF, upper 0x1F08, lower 0x1F10, hidden 0x1F16, upper 0x1F18,
  hidden 0x1F1E, lower 0x1F20, upper 0x1F28, lower 0x1F30, upper 0x1F38, lower 0x1F40,
  hidden 0x1F46, upper 0x1F48, hidden 0x1F4E, lower 0x1F50, hidden 0x1F58, upper 0x1F59,
  hidden 0x1F5A, upper 0x1F5B, hidden 0x1F5C, upper 0x1F5D, hidden 0x1F5E, upper 0x1F5F,
  lower 0x1F60, upper 0x1F68, lower 0x1F70, hidden 0x1F7E, lower 0x1F80, letter 0x1F88,
  lower 0x1F90, letter 0x1F98, lower 0x1FA0, letter 0x1FA8, lower 0x1FB0, hidden 0x1FB5,
  lower 0x1FB6, upper 0x1FB8, letter 0x1FBC, graphic 0x1FBD, lower 0x1FBE, graphic 0x1FBF,
  lower 0x1FC2, hidden 0x1FC5, lower 0x1FC6, upper 0x1FC8, letter 0x1FCC, graphic 0x1FCD,
  lower 0x1FD0, hidden 0x1FD4, lower 0x1FD6, upper 0x1FD8, hidden 0x1FDC, graphic 0x1FDD,
  lower 0x1FE0, upper 0x1FE8, graphic 0x1FED, hidden 0x1FF0, lower 0x1FF2, hidden 0x1FF5,
  lower 0x1FF6, upper 0x1FF8, letter 0x1FFC, graphic 0x1FFD, hidden 0x1FFF, graphic 0x2010,
  hidden 0x2028, graphic 0x2030, connector 0x203F, graphic 0x2041, connector 0x2054,
  graphic 0x2055, hidden 0x205F, graphic 0x2070, letter 0x2071, hidden 0x2072, graphic 0x2074,
  letter 0x207F, graphic 0x2080, hidden 0x208F, letter 0x2090, hidden 0x209D, graphic 0x20A0,
  hidden 0x20C2, extending 0x20D0, hidden 0x20F1, graphic 0x2100, upper 0x2102, graphic 0x2103,
  upper 0x2107]

def runsFrom2108 : List Run := [
  graphic 0x2108, lower 0x210A, upper 0x210B, lower 0x210E, upper 0x2110, lower 0x2113,
  graphic 0x2114, upper 0x2115, graphic 0x2116, upper 0x2119, graphic 0x211E, upper 0x2124,
  graphic 0x2125, upper 0x2126, graphic 0x2127, upper 0x2128, graphic 0x2129, upper 0x212A,
  graphic 0x212E, lower 0x212F, upper 0x2130, lower 0x2134, letter 0x2135, lower 0x2139,
  graphic 0x213A, lower 0x213C, upper 0x213E, graphic 0x2140, upper 0x2145, lower 0x2146,
  graphic 0x214A, lower 0x214E, graphic 0x214F, upper 0x2183, lower 0x2184, graphic 0x2185,
  hidden 0x218C, graphic 0x2190, hidden 0x242A, graphic 0x2440, hidden 0x244B, graphic 0x2460,
  hidden 0x2B74, graphic 0x2B76, upper 0x2C00, lower 0x2C30, upper 0x2C60, lower 0x2C61,
  upper 0x2C62, lower 0x2C65, upperLower 0x2C67, upper 0x2C6D, lower 0x2C71, upper 0x2C72,
  lower 0x2C73, upper 0x2C75, lower 0x2C76, letter 0x2C7C, upper 0x2C7E, lowerUpper 0x2C81,
  lower 0x2CE3, graphic 0x2CE5, upperLower 0x2CEB, extending 0x2CEF, upper 0x2CF2, lower 0x2CF3,
  hidden 0x2CF4, graphic 0x2CF9, lower 0x2D00, hidden 0x2D26, lower 0x2D27, hidden 0x2D28,
  lower 0x2D2D, hidden 0x2D2E, letter 0x2D30, hidden 0x2D68, letter 0x2D6F, graphic 0x2D70,
  hidden 0x2D71, extending 0x2D7F, letter 0x2D80, hidden 0x2D97, letter 0x2DA0, hidden 0x2DA7,
  letter 0x2DA8, hidden 0x2DAF, letter 0x2DB0, hidden 0x2DB7, letter 0x2DB8, hidden 0x2DBF,
  letter 0x2DC0, hidden 0x2DC7, letter 0x2DC8, hidden 0x2DCF, letter 0x2DD0, hidden 0x2DD7,
  letter 0x2DD8, hidden 0x2DDF, extending 0x2DE0, graphic 0x2E00, letter 0x2E2F, graphic 0x2E30,
  hidden 0x2E5E, graphic 0x2E80, hidden 0x2E9A, graphic 0x2E9B, hidden 0x2EF4, graphic 0x2F00,
  hidden 0x2FD6, graphic 0x2FF0, hidden 0x3000, graphic 0x3001, letter 0x3005, graphic 0x3007,
  extending 0x302A, graphic 0x3030, letter 0x3031, graphic 0x3036, letter 0x303B, graphic 0x303D,
  hidden 0x3040, letter 0x3041, hidden 0x3097, extending 0x3099, graphic 0x309B, letter 0x309D,
  graphic 0x30A0, letter 0x30A1, graphic 0x30FB, letter 0x30FC]

def runsFrom3100 : List Run := [
  hidden 0x3100, letter 0x3105, hidden 0x3130, letter 0x3131, hidden 0x318F, graphic 0x3190,
  letter 0x31A0, graphic 0x31C0, hidden 0x31E6, graphic 0x31EF, letter 0x31F0, graphic 0x3200,
  hidden 0x321F, graphic 0x3220, letter 0x3400, graphic 0x4DC0, letter 0x4E00, hidden 0xA48D,
  graphic 0xA490, hidden 0xA4C7, letter 0xA4D0, graphic 0xA4FE, letter 0xA500, graphic 0xA60D,
  letter 0xA610, digit 0xA620, letter 0xA62A, hidden 0xA62C, upperLower 0xA640, letter 0xA66E,
  extending 0xA66F, graphic 0xA673, extending 0xA674, graphic 0xA67E, letter 0xA67F,
  upperLower 0xA680, letter 0xA69C, extending 0xA69E, letter 0xA6A0, graphic 0xA6E6,
  extending 0xA6F0, graphic 0xA6F2, hidden 0xA6F8, graphic 0xA700, letter 0xA717, graphic 0xA720,
  upperLower 0xA722, lower 0xA72F, upperLower 0xA732, letter 0xA770, lower 0xA771,
  upperLower 0xA779, upper 0xA77D, lowerUpper 0xA77F, letter 0xA788, graphic 0xA789,
  upperLower 0xA78B, letter 0xA78F, upperLower 0xA790, lower 0xA793, upperLower 0xA796,
  upper 0xA7AA, lower 0xA7AF, upper 0xA7B0, lowerUpper 0xA7B5, upper 0xA7C4, lowerUpper 0xA7C8,
  upper 0xA7CB, lowerUpper 0xA7CD, hidden 0xA7DD, letter 0xA7F1, upper 0xA7F5, lower 0xA7F6,
  letter 0xA7F7, lower 0xA7FA, letter 0xA7FB, extending 0xA802, letter 0xA803, extending 0xA806,
  letter 0xA807, extending 0xA80B, letter 0xA80C, mark 0xA823, extending 0xA825, mark 0xA827,
  graphic 0xA828, extending 0xA82C, hidden 0xA82D, graphic 0xA830, hidden 0xA83A, letter 0xA840,
  graphic 0xA874, hidden 0xA878, mark 0xA880, letter 0xA882, mark 0xA8B4, extending 0xA8C4,
  hidden 0xA8C6, graphic 0xA8CE, digit 0xA8D0, hidden 0xA8DA, extending 0xA8E0, letter 0xA8F2,
  graphic 0xA8F8, letter 0xA8FB, graphic 0xA8FC, letter 0xA8FD, extending 0xA8FF, digit 0xA900,
  letter 0xA90A, extending 0xA926, graphic 0xA92E, letter 0xA930, extending 0xA947, mark 0xA952,
  extending 0xA953, hidden 0xA954, graphic 0xA95F, letter 0xA960, hidden 0xA97D, extending 0xA980,
  mark 0xA983, letter 0xA984, extending 0xA9B3, mark 0xA9B4, extending 0xA9B6, mark 0xA9BA,
  extending 0xA9BC, mark 0xA9BE, extending 0xA9C0]

def runsFromA9C1 : List Run := [
  graphic 0xA9C1, hidden 0xA9CE, letter 0xA9CF, digit 0xA9D0, hidden 0xA9DA, graphic 0xA9DE,
  letter 0xA9E0, extending 0xA9E5, letter 0xA9E6, digit 0xA9F0, letter 0xA9FA, hidden 0xA9FF,
  letter 0xAA00, extending 0xAA29, mark 0xAA2F, extending 0xAA31, mark 0xAA33, extending 0xAA35,
  hidden 0xAA37, letter 0xAA40, extending 0xAA43, letter 0xAA44, extending 0xAA4C, mark 0xAA4D,
  hidden 0xAA4E, digit 0xAA50, hidden 0xAA5A, graphic 0xAA5C, letter 0xAA60, graphic 0xAA77,
  letter 0xAA7A, mark 0xAA7B, extending 0xAA7C, mark 0xAA7D, letter 0xAA7E, extending 0xAAB0,
  letter 0xAAB1, extending 0xAAB2, letter 0xAAB5, extending 0xAAB7, letter 0xAAB9,
  extending 0xAABE, letter 0xAAC0, extending 0xAAC1, letter 0xAAC2, hidden 0xAAC3, letter 0xAADB,
  graphic 0xAADE, letter 0xAAE0, mark 0xAAEB, extending 0xAAEC, mark 0xAAEE, graphic 0xAAF0,
  letter 0xAAF2, mark 0xAAF5, extending 0xAAF6, hidden 0xAAF7, letter 0xAB01, hidden 0xAB07,
  letter 0xAB09, hidden 0xAB0F, letter 0xAB11, hidden 0xAB17, letter 0xAB20, hidden 0xAB27,
  letter 0xAB28, hidden 0xAB2F, lower 0xAB30, graphic 0xAB5B, letter 0xAB5C, lower 0xAB60,
  letter 0xAB69, graphic 0xAB6A, hidden 0xAB6C, lower 0xAB70, letter 0xABC0, mark 0xABE3,
  extending 0xABE5, mark 0xABE6, extending 0xABE8, mark 0xABE9, graphic 0xABEB, mark 0xABEC,
  extending 0xABED, hidden 0xABEE, digit 0xABF0, hidden 0xABFA, letter 0xAC00, hidden 0xD7A4,
  letter 0xD7B0, hidden 0xD7C7, letter 0xD7CB, hidden 0xD7FC, letter 0xF900, hidden 0xFA6E,
  letter 0xFA70, hidden 0xFADA, lower 0xFB00, hidden 0xFB07, lower 0xFB13, hidden 0xFB18,
  letter 0xFB1D, extending 0xFB1E, letter 0xFB1F, graphic 0xFB29, letter 0xFB2A, hidden 0xFB37,
  letter 0xFB38, hidden 0xFB3D, letter 0xFB3E, hidden 0xFB3F, letter 0xFB40, hidden 0xFB42,
  letter 0xFB43, hidden 0xFB45, letter 0xFB46, graphic 0xFBB2, letter 0xFBD3, graphic 0xFD3E,
  letter 0xFD50, graphic 0xFD90, letter 0xFD92, graphic 0xFDC8, hidden 0xFDD0, letter 0xFDF0,
  graphic 0xFDFC, extending 0xFE00, graphic 0xFE10, hidden 0xFE1A, extending 0xFE20]

def runsFromFE30 : List Run := [
  graphic 0xFE30, connector 0xFE33, graphic 0xFE35, connector 0xFE4D, graphic 0xFE50,
  hidden 0xFE53, graphic 0xFE54, hidden 0xFE67, graphic 0xFE68, hidden 0xFE6C, letter 0xFE70,
  hidden 0xFE75, letter 0xFE76, hidden 0xFEFD, graphic 0xFF01, digit 0xFF10, graphic 0xFF1A,
  upper 0xFF21, graphic 0xFF3B, connector 0xFF3F, graphic 0xFF40, lower 0xFF41, graphic 0xFF5B,
  letter 0xFF66, hidden 0xFFBF, letter 0xFFC2, hidden 0xFFC8, letter 0xFFCA, hidden 0xFFD0,
  letter 0xFFD2, hidden 0xFFD8, letter 0xFFDA, hidden 0xFFDD, graphic 0xFFE0, hidden 0xFFE7,
  graphic 0xFFE8, hidden 0xFFEF, graphic 0xFFFC, hidden 0xFFFE, letter 0x10000, hidden 0x1000C,
  letter 0x1000D, hidden 0x10027, letter 0x10028, hidden 0x1003B, letter 0x1003C, hidden 0x1003E,
  letter 0x1003F, hidden 0x1004E, letter 0x10050, hidden 0x1005E, letter 0x10080, hidden 0x100FB,
  graphic 0x10100, hidden 0x10103, graphic 0x10107, hidden 0x10134, graphic 0x10137,
  hidden 0x1018F, graphic 0x10190, hidden 0x1019D, graphic 0x101A0, hidden 0x101A1,
  graphic 0x101D0, extending 0x101FD, hidden 0x101FE, letter 0x10280, hidden 0x1029D,
  letter 0x102A0, hidden 0x102D1, extending 0x102E0, graphic 0x102E1, hidden 0x102FC,
  letter 0x10300, graphic 0x10320, hidden 0x10324, letter 0x1032D, graphic 0x10341,
  letter 0x10342, graphic 0x1034A, hidden 0x1034B, letter 0x10350, extending 0x10376,
  hidden 0x1037B, letter 0x10380, hidden 0x1039E, graphic 0x1039F, letter 0x103A0, hidden 0x103C4,
  letter 0x103C8, graphic 0x103D0, hidden 0x103D6, upper 0x10400, lower 0x10428, letter 0x10450,
  hidden 0x1049E, digit 0x104A0, hidden 0x104AA, upper 0x104B0, hidden 0x104D4, lower 0x104D8,
  hidden 0x104FC, letter 0x10500, hidden 0x10528, letter 0x10530, hidden 0x10564, graphic 0x1056F,
  upper 0x10570, hidden 0x1057B, upper 0x1057C, hidden 0x1058B, upper 0x1058C, hidden 0x10593,
  upper 0x10594, hidden 0x10596, lower 0x10597, hidden 0x105A2, lower 0x105A3, hidden 0x105B2,
  lower 0x105B3, hidden 0x105BA, lower 0x105BB, hidden 0x105BD, letter 0x105C0, hidden 0x105F4,
  letter 0x10600, hidden 0x10737, letter 0x10740, hidden 0x10756, letter 0x10760]

def runsFrom10768 : List Run := [
  hidden 0x10768, letter 0x10780, hidden 0x10786, letter 0x10787, hidden 0x107B1, letter 0x107B2,
  hidden 0x107BB, letter 0x10800, hidden 0x10806, letter 0x10808, hidden 0x10809, letter 0x1080A,
  hidden 0x10836, letter 0x10837, hidden 0x10839, letter 0x1083C, hidden 0x1083D, letter 0x1083F,
  hidden 0x10856, graphic 0x10857, letter 0x10860, graphic 0x10877, letter 0x10880,
  hidden 0x1089F, graphic 0x108A7, hidden 0x108B0, letter 0x108E0, hidden 0x108F3, letter 0x108F4,
  hidden 0x108F6, graphic 0x108FB, letter 0x10900, graphic 0x10916, hidden 0x1091C,
  graphic 0x1091F, letter 0x10920, hidden 0x1093A, graphic 0x1093F, letter 0x10940,
  hidden 0x1095A, letter 0x10980, hidden 0x109B8, graphic 0x109BC, letter 0x109BE,
  graphic 0x109C0, hidden 0x109D0, graphic 0x109D2, letter 0x10A00, extending 0x10A01,
  hidden 0x10A04, extending 0x10A05, hidden 0x10A07, extending 0x10A0C, letter 0x10A10,
  hidden 0x10A14, letter 0x10A15, hidden 0x10A18, letter 0x10A19, hidden 0x10A36,
  extending 0x10A38, hidden 0x10A3B, extending 0x10A3F, graphic 0x10A40, hidden 0x10A49,
  graphic 0x10A50, hidden 0x10A59, letter 0x10A60, graphic 0x10A7D, letter 0x10A80,
  graphic 0x10A9D, hidden 0x10AA0, letter 0x10AC0, graphic 0x10AC8, letter 0x10AC9,
  extending 0x10AE5, hidden 0x10AE7, graphic 0x10AEB, hidden 0x10AF7, letter 0x10B00,
  hidden 0x10B36, graphic 0x10B39, letter 0x10B40, hidden 0x10B56, graphic 0x10B58,
  letter 0x10B60, hidden 0x10B73, graphic 0x10B78, letter 0x10B80, hidden 0x10B92,
  graphic 0x10B99, hidden 0x10B9D, graphic 0x10BA9, hidden 0x10BB0, letter 0x10C00,
  hidden 0x10C49, upper 0x10C80, hidden 0x10CB3, lower 0x10CC0, hidden 0x10CF3, graphic 0x10CFA,
  letter 0x10D00, extending 0x10D24, hidden 0x10D28, digit 0x10D30, hidden 0x10D3A, digit 0x10D40,
  letter 0x10D4A, upper 0x10D50, hidden 0x10D66, extending 0x10D69, graphic 0x10D6E,
  letter 0x10D6F, lower 0x10D70, hidden 0x10D86, graphic 0x10D8E, hidden 0x10D90, graphic 0x10E60,
  hidden 0x10E7F, letter 0x10E80, hidden 0x10EAA, extending 0x10EAB, graphic 0x10EAD,
  hidden 0x10EAE, letter 0x10EB0, hidden 0x10EB2, letter 0x10EC2, hidden 0x10EC8, graphic 0x10ED0,
  hidden 0x10ED9, extending 0x10EFA]

def runsFrom10F00 : List Run := [
  letter 0x10F00, graphic 0x10F1D, letter 0x10F27, hidden 0x10F28, letter 0x10F30,
  extending 0x10F46, graphic 0x10F51, hidden 0x10F5A, letter 0x10F70, extending 0x10F82,
  graphic 0x10F86, hidden 0x10F8A, letter 0x10FB0, graphic 0x10FC5, hidden 0x10FCC,
  letter 0x10FE0, hidden 0x10FF7, mark 0x11000, extending 0x11001, mark 0x11002, letter 0x11003,
  extending 0x11038, graphic 0x11047, hidden 0x1104E, graphic 0x11052, digit 0x11066,
  extending 0x11070, letter 0x11071, extending 0x11073, letter 0x11075, hidden 0x11076,
  extending 0x1107F, mark 0x11082, letter 0x11083, mark 0x110B0, extending 0x110B3, mark 0x110B7,
  extending 0x110B9, graphic 0x110BB, hidden 0x110BD, graphic 0x110BE, extending 0x110C2,
  hidden 0x110C3, letter 0x110D0, hidden 0x110E9, digit 0x110F0, hidden 0x110FA,
  extending 0x11100, letter 0x11103, extending 0x11127, mark 0x1112C, extending 0x1112D,
  hidden 0x11135, digit 0x11136, graphic 0x11140, letter 0x11144, mark 0x11145, letter 0x11147,
  hidden 0x11148, letter 0x11150, extending 0x11173, graphic 0x11174, letter 0x11176,
  hidden 0x11177, extending 0x11180, mark 0x11182, letter 0x11183, mark 0x111B3,
  extending 0x111B6, mark 0x111BF, extending 0x111C0, letter 0x111C1, graphic 0x111C5,
  extending 0x111C9, graphic 0x111CD, mark 0x111CE, extending 0x111CF, digit 0x111D0,
  letter 0x111DA, graphic 0x111DB, letter 0x111DC, graphic 0x111DD, hidden 0x111E0,
  graphic 0x111E1, hidden 0x111F5, letter 0x11200, hidden 0x11212, letter 0x11213, mark 0x1122C,
  extending 0x1122F, mark 0x11232, extending 0x11234, graphic 0x11238, extending 0x1123E,
  letter 0x1123F, extending 0x11241, hidden 0x11242, letter 0x11280, hidden 0x11287,
  letter 0x11288, hidden 0x11289, letter 0x1128A, hidden 0x1128E, letter 0x1128F, hidden 0x1129E,
  letter 0x1129F, graphic 0x112A9, hidden 0x112AA, letter 0x112B0, extending 0x112DF,
  mark 0x112E0, extending 0x112E3, hidden 0x112EB, digit 0x112F0, hidden 0x112FA,
  extending 0x11300, mark 0x11302, hidden 0x11304, letter 0x11305, hidden 0x1130D, letter 0x1130F,
  hidden 0x11311, letter 0x11313, hidden 0x11329, letter 0x1132A, hidden 0x11331, letter 0x11332,
  hidden 0x11334, letter 0x11335, hidden 0x1133A]

def runsFrom1133B : List Run := [
  extending 0x1133B, letter 0x1133D, extending 0x1133E, mark 0x1133F, extending 0x11340,
  mark 0x11341, hidden 0x11345, mark 0x11347, hidden 0x11349, mark 0x1134B, extending 0x1134D,
  hidden 0x1134E, letter 0x11350, hidden 0x11351, extending 0x11357, hidden 0x11358,
  letter 0x1135D, mark 0x11362, hidden 0x11364, extending 0x11366, hidden 0x1136D,
  extending 0x11370, hidden 0x11375, letter 0x11380, hidden 0x1138A, letter 0x1138B,
  hidden 0x1138C, letter 0x1138E, hidden 0x1138F, letter 0x11390, hidden 0x113B6, letter 0x113B7,
  extending 0x113B8, mark 0x113B9, extending 0x113BB, hidden 0x113C1, extending 0x113C2,
  hidden 0x113C3, extending 0x113C5, hidden 0x113C6, extending 0x113C7, mark 0x113CA,
  hidden 0x113CB, mark 0x113CC, extending 0x113CE, letter 0x113D1, extending 0x113D2,
  letter 0x113D3, graphic 0x113D4, hidden 0x113D6, graphic 0x113D7, hidden 0x113D9,
  extending 0x113E1, hidden 0x113E3, letter 0x11400, mark 0x11435, extending 0x11438,
  mark 0x11440, extending 0x11442, mark 0x11445, extending 0x11446, letter 0x11447,
  graphic 0x1144B, digit 0x11450, graphic 0x1145A, hidden 0x1145C, graphic 0x1145D,
  extending 0x1145E, letter 0x1145F, hidden 0x11462, letter 0x11480, extending 0x114B0,
  mark 0x114B1, extending 0x114B3, mark 0x114B9, extending 0x114BA, mark 0x114BB,
  extending 0x114BD, mark 0x114BE, extending 0x114BF, mark 0x114C1, extending 0x114C2,
  letter 0x114C4, graphic 0x114C6, letter 0x114C7, hidden 0x114C8, digit 0x114D0, hidden 0x114DA,
  letter 0x11580, extending 0x115AF, mark 0x115B0, extending 0x115B2, hidden 0x115B6,
  mark 0x115B8, extending 0x115BC, mark 0x115BE, extending 0x115BF, graphic 0x115C1,
  letter 0x115D8, extending 0x115DC, hidden 0x115DE, letter 0x11600, mark 0x11630,
  extending 0x11633, mark 0x1163B, extending 0x1163D, mark 0x1163E, extending 0x1163F,
  graphic 0x11641, letter 0x11644, hidden 0x11645, digit 0x11650, hidden 0x1165A, graphic 0x11660,
  hidden 0x1166D, letter 0x11680, extending 0x116AB, mark 0x116AC, extending 0x116AD,
  mark 0x116AE, extending 0x116B0, letter 0x116B8, graphic 0x116B9, hidden 0x116BA, digit 0x116C0,
  hidden 0x116CA, digit 0x116D0, hidden 0x116E4, letter 0x11700, hidden 0x1171B]

def runsFrom1171D : List Run := [
  extending 0x1171D, mark 0x1171E, extending 0x1171F, mark 0x11720, extending 0x11722,
  mark 0x11726, extending 0x11727, hidden 0x1172C, digit 0x11730, graphic 0x1173A, letter 0x11740,
  hidden 0x11747, letter 0x11800, mark 0x1182C, extending 0x1182F, mark 0x11838,
  extending 0x11839, graphic 0x1183B, hidden 0x1183C, upper 0x118A0, lower 0x118C0, digit 0x118E0,
  graphic 0x118EA, hidden 0x118F3, letter 0x118FF, hidden 0x11907, letter 0x11909, hidden 0x1190A,
  letter 0x1190C, hidden 0x11914, letter 0x11915, hidden 0x11917, letter 0x11918,
  extending 0x11930, mark 0x11931, hidden 0x11936, mark 0x11937, hidden 0x11939,
  extending 0x1193B, letter 0x1193F, mark 0x11940, letter 0x11941, mark 0x11942,
  extending 0x11943, graphic 0x11944, hidden 0x11947, digit 0x11950, hidden 0x1195A,
  letter 0x119A0, hidden 0x119A8, letter 0x119AA, mark 0x119D1, extending 0x119D4, hidden 0x119D8,
  extending 0x119DA, mark 0x119DC, extending 0x119E0, letter 0x119E1, graphic 0x119E2,
  letter 0x119E3, mark 0x119E4, hidden 0x119E5, letter 0x11A00, extending 0x11A01, letter 0x11A0B,
  extending 0x11A33, mark 0x11A39, letter 0x11A3A, extending 0x11A3B, graphic 0x11A3F,
  extending 0x11A47, hidden 0x11A48, letter 0x11A50, extending 0x11A51, mark 0x11A57,
  extending 0x11A59, letter 0x11A5C, extending 0x11A8A, mark 0x11A97, extending 0x11A98,
  graphic 0x11A9A, letter 0x11A9D, graphic 0x11A9E, hidden 0x11AA3, letter 0x11AB0,
  hidden 0x11AF9, graphic 0x11B00, hidden 0x11B0A, extending 0x11B60, mark 0x11B61,
  extending 0x11B62, mark 0x11B65, extending 0x11B66, mark 0x11B67, hidden 0x11B68,
  letter 0x11BC0, graphic 0x11BE1, hidden 0x11BE2, digit 0x11BF0, hidden 0x11BFA, letter 0x11C00,
  hidden 0x11C09, letter 0x11C0A, mark 0x11C2F, extending 0x11C30, hidden 0x11C37,
  extending 0x11C38, mark 0x11C3E, extending 0x11C3F, letter 0x11C40, graphic 0x11C41,
  hidden 0x11C46, digit 0x11C50, graphic 0x11C5A, hidden 0x11C6D, graphic 0x11C70, letter 0x11C72,
  hidden 0x11C90, extending 0x11C92, hidden 0x11CA8, mark 0x11CA9, extending 0x11CAA,
  mark 0x11CB1, extending 0x11CB2, mark 0x11CB4, extending 0x11CB5, hidden 0x11CB7,
  letter 0x11D00, hidden 0x11D07, letter 0x11D08]

def runsFrom11D0A : List Run := [
  hidden 0x11D0A, letter 0x11D0B, extending 0x11D31, hidden 0x11D37, extending 0x11D3A,
  hidden 0x11D3B, extending 0x11D3C, hidden 0x11D3E, extending 0x11D3F, letter 0x11D46,
  extending 0x11D47, hidden 0x11D48, digit 0x11D50, hidden 0x11D5A, letter 0x11D60,
  hidden 0x11D66, letter 0x11D67, hidden 0x11D69, letter 0x11D6A, mark 0x11D8A, hidden 0x11D8F,
  extending 0x11D90, hidden 0x11D92, mark 0x11D93, extending 0x11D95, mark 0x11D96,
  extending 0x11D97, letter 0x11D98, hidden 0x11D99, digit 0x11DA0, hidden 0x11DAA,
  letter 0x11DB0, hidden 0x11DDC, digit 0x11DE0, hidden 0x11DEA, letter 0x11EE0,
  extending 0x11EF3, mark 0x11EF5, graphic 0x11EF7, hidden 0x11EF9, extending 0x11F00,
  letter 0x11F02, mark 0x11F03, letter 0x11F04, hidden 0x11F11, letter 0x11F12, mark 0x11F34,
  extending 0x11F36, hidden 0x11F3B, mark 0x11F3E, extending 0x11F40, graphic 0x11F43,
  digit 0x11F50, extending 0x11F5A, hidden 0x11F5B, letter 0x11FB0, hidden 0x11FB1,
  graphic 0x11FC0, hidden 0x11FF2, graphic 0x11FFF, letter 0x12000, hidden 0x1239A,
  graphic 0x12400, hidden 0x1246F, graphic 0x12470, hidden 0x12475, letter 0x12480,
  hidden 0x12544, letter 0x12F90, graphic 0x12FF1, hidden 0x12FF3, letter 0x13000, hidden 0x13430,
  extending 0x13440, letter 0x13441, extending 0x13447, hidden 0x13456, letter 0x13460,
  hidden 0x143FB, letter 0x14400, hidden 0x14647, letter 0x16100, extending 0x1611E, mark 0x1612A,
  extending 0x1612D, digit 0x16130, hidden 0x1613A, letter 0x16800, hidden 0x16A39,
  letter 0x16A40, hidden 0x16A5F, digit 0x16A60, hidden 0x16A6A, graphic 0x16A6E, letter 0x16A70,
  hidden 0x16ABF, digit 0x16AC0, hidden 0x16ACA, letter 0x16AD0, hidden 0x16AEE,
  extending 0x16AF0, graphic 0x16AF5, hidden 0x16AF6, letter 0x16B00, extending 0x16B30,
  graphic 0x16B37, letter 0x16B40, graphic 0x16B44, hidden 0x16B46, digit 0x16B50, hidden 0x16B5A,
  graphic 0x16B5B, hidden 0x16B62, letter 0x16B63, hidden 0x16B78, letter 0x16B7D, hidden 0x16B90,
  letter 0x16D40, graphic 0x16D6D, digit 0x16D70, hidden 0x16D7A, upper 0x16E40, lower 0x16E60,
  graphic 0x16E80, hidden 0x16E9B, upper 0x16EA0, hidden 0x16EB9, lower 0x16EBB, hidden 0x16ED4,
  letter 0x16F00]

def runsFrom16F4B : List Run := [
  hidden 0x16F4B, extending 0x16F4F, letter 0x16F50, mark 0x16F51, hidden 0x16F88,
  extending 0x16F8F, letter 0x16F93, hidden 0x16FA0, letter 0x16FE0, graphic 0x16FE2,
  letter 0x16FE3, extending 0x16FE4, hidden 0x16FE5, extending 0x16FF0, letter 0x16FF2,
  graphic 0x16FF4, hidden 0x16FF7, letter 0x17000, hidden 0x18CD6, letter 0x18CFF, hidden 0x18D1F,
  letter 0x18D80, hidden 0x18DF3, letter 0x1AFF0, hidden 0x1AFF4, letter 0x1AFF5, hidden 0x1AFFC,
  letter 0x1AFFD, hidden 0x1AFFF, letter 0x1B000, hidden 0x1B123, letter 0x1B132, hidden 0x1B133,
  letter 0x1B150, hidden 0x1B153, letter 0x1B155, hidden 0x1B156, letter 0x1B164, hidden 0x1B168,
  letter 0x1B170, hidden 0x1B2FC, letter 0x1BC00, hidden 0x1BC6B, letter 0x1BC70, hidden 0x1BC7D,
  letter 0x1BC80, hidden 0x1BC89, letter 0x1BC90, hidden 0x1BC9A, graphic 0x1BC9C,
  extending 0x1BC9D, graphic 0x1BC9F, hidden 0x1BCA0, graphic 0x1CC00, digit 0x1CCF0,
  graphic 0x1CCFA, hidden 0x1CCFD, graphic 0x1CD00, hidden 0x1CEB4, graphic 0x1CEBA,
  hidden 0x1CED1, graphic 0x1CEE0, hidden 0x1CEF1, extending 0x1CF00, hidden 0x1CF2E,
  extending 0x1CF30, hidden 0x1CF47, graphic 0x1CF50, hidden 0x1CFC4, graphic 0x1D000,
  hidden 0x1D0F6, graphic 0x1D100, hidden 0x1D127, graphic 0x1D129, extending 0x1D165,
  graphic 0x1D16A, extending 0x1D16D, hidden 0x1D173, extending 0x1D17B, graphic 0x1D183,
  extending 0x1D185, graphic 0x1D18C, extending 0x1D1AA, graphic 0x1D1AE, hidden 0x1D1EB,
  graphic 0x1D200, extending 0x1D242, graphic 0x1D245, hidden 0x1D246, graphic 0x1D2C0,
  hidden 0x1D2D4, graphic 0x1D2E0, hidden 0x1D2F4, graphic 0x1D300, hidden 0x1D357,
  graphic 0x1D360, hidden 0x1D379, upper 0x1D400, lower 0x1D41A, upper 0x1D434, lower 0x1D44E,
  hidden 0x1D455, lower 0x1D456, upper 0x1D468, lower 0x1D482, upper 0x1D49C, hidden 0x1D49D,
  upper 0x1D49E, hidden 0x1D4A0, upper 0x1D4A2, hidden 0x1D4A3, upper 0x1D4A5, hidden 0x1D4A7,
  upper 0x1D4A9, hidden 0x1D4AD, upper 0x1D4AE, lower 0x1D4B6, hidden 0x1D4BA, lower 0x1D4BB,
  hidden 0x1D4BC, lower 0x1D4BD, hidden 0x1D4C4, lower 0x1D4C5, upper 0x1D4D0, lower 0x1D4EA,
  upper 0x1D504, hidden 0x1D506, upper 0x1D507, hidden 0x1D50B, upper 0x1D50D]

def runsFrom1D515 : List Run := [
  hidden 0x1D515, upper 0x1D516, hidden 0x1D51D, lower 0x1D51E, upper 0x1D538, hidden 0x1D53A,
  upper 0x1D53B, hidden 0x1D53F, upper 0x1D540, hidden 0x1D545, upper 0x1D546, hidden 0x1D547,
  upper 0x1D54A, hidden 0x1D551, lower 0x1D552, upper 0x1D56C, lower 0x1D586, upper 0x1D5A0,
  lower 0x1D5BA, upper 0x1D5D4, lower 0x1D5EE, upper 0x1D608, lower 0x1D622, upper 0x1D63C,
  lower 0x1D656, upper 0x1D670, lower 0x1D68A, hidden 0x1D6A6, upper 0x1D6A8, graphic 0x1D6C1,
  lower 0x1D6C2, graphic 0x1D6DB, lower 0x1D6DC, upper 0x1D6E2, graphic 0x1D6FB, lower 0x1D6FC,
  graphic 0x1D715, lower 0x1D716, upper 0x1D71C, graphic 0x1D735, lower 0x1D736, graphic 0x1D74F,
  lower 0x1D750, upper 0x1D756, graphic 0x1D76F, lower 0x1D770, graphic 0x1D789, lower 0x1D78A,
  upper 0x1D790, graphic 0x1D7A9, lower 0x1D7AA, graphic 0x1D7C3, lower 0x1D7C4, upper 0x1D7CA,
  lower 0x1D7CB, hidden 0x1D7CC, digit 0x1D7CE, graphic 0x1D800, extending 0x1DA00,
  graphic 0x1DA37, extending 0x1DA3B, graphic 0x1DA6D, extending 0x1DA75, graphic 0x1DA76,
  extending 0x1DA84, graphic 0x1DA85, hidden 0x1DA8C, extending 0x1DA9B, hidden 0x1DAA0,
  extending 0x1DAA1, hidden 0x1DAB0, lower 0x1DF00, letter 0x1DF0A, lower 0x1DF0B, hidden 0x1DF1F,
  lower 0x1DF25, hidden 0x1DF2B, extending 0x1E000, hidden 0x1E007, extending 0x1E008,
  hidden 0x1E019, extending 0x1E01B, hidden 0x1E022, extending 0x1E023, hidden 0x1E025,
  extending 0x1E026, hidden 0x1E02B, letter 0x1E030, hidden 0x1E06E, extending 0x1E08F,
  hidden 0x1E090, letter 0x1E100, hidden 0x1E12D, extending 0x1E130, letter 0x1E137,
  hidden 0x1E13E, digit 0x1E140, hidden 0x1E14A, letter 0x1E14E, graphic 0x1E14F, hidden 0x1E150,
  letter 0x1E290, extending 0x1E2AE, hidden 0x1E2AF, letter 0x1E2C0, extending 0x1E2EC,
  digit 0x1E2F0, hidden 0x1E2FA, graphic 0x1E2FF, hidden 0x1E300, letter 0x1E4D0,
  extending 0x1E4EC, digit 0x1E4F0, hidden 0x1E4FA, letter 0x1E5D0, extending 0x1E5EE,
  letter 0x1E5F0, digit 0x1E5F1, hidden 0x1E5FB, graphic 0x1E5FF, hidden 0x1E600, letter 0x1E6C0,
  hidden 0x1E6DF, letter 0x1E6E0, extending 0x1E6E3, letter 0x1E6E4, extending 0x1E6E6,
  letter 0x1E6E7, extending 0x1E6EE, letter 0x1E6F0]

def runsFrom1E6F5 : List Run := [
  extending 0x1E6F5, hidden 0x1E6F6, letter 0x1E6FE, hidden 0x1E700, letter 0x1E7E0,
  hidden 0x1E7E7, letter 0x1E7E8, hidden 0x1E7EC, letter 0x1E7ED, hidden 0x1E7EF, letter 0x1E7F0,
  hidden 0x1E7FF, letter 0x1E800, hidden 0x1E8C5, graphic 0x1E8C7, extending 0x1E8D0,
  hidden 0x1E8D7, upper 0x1E900, lower 0x1E922, extending 0x1E944, letter 0x1E94B, hidden 0x1E94C,
  digit 0x1E950, hidden 0x1E95A, graphic 0x1E95E, hidden 0x1E960, graphic 0x1EC71, hidden 0x1ECB5,
  graphic 0x1ED01, hidden 0x1ED3E, letter 0x1EE00, hidden 0x1EE04, letter 0x1EE05, hidden 0x1EE20,
  letter 0x1EE21, hidden 0x1EE23, letter 0x1EE24, hidden 0x1EE25, letter 0x1EE27, hidden 0x1EE28,
  letter 0x1EE29, hidden 0x1EE33, letter 0x1EE34, hidden 0x1EE38, letter 0x1EE39, hidden 0x1EE3A,
  letter 0x1EE3B, hidden 0x1EE3C, letter 0x1EE42, hidden 0x1EE43, letter 0x1EE47, hidden 0x1EE48,
  letter 0x1EE49, hidden 0x1EE4A, letter 0x1EE4B, hidden 0x1EE4C, letter 0x1EE4D, hidden 0x1EE50,
  letter 0x1EE51, hidden 0x1EE53, letter 0x1EE54, hidden 0x1EE55, letter 0x1EE57, hidden 0x1EE58,
  letter 0x1EE59, hidden 0x1EE5A, letter 0x1EE5B, hidden 0x1EE5C, letter 0x1EE5D, hidden 0x1EE5E,
  letter 0x1EE5F, hidden 0x1EE60, letter 0x1EE61, hidden 0x1EE63, letter 0x1EE64, hidden 0x1EE65,
  letter 0x1EE67, hidden 0x1EE6B, letter 0x1EE6C, hidden 0x1EE73, letter 0x1EE74, hidden 0x1EE78,
  letter 0x1EE79, hidden 0x1EE7D, letter 0x1EE7E, hidden 0x1EE7F, letter 0x1EE80, hidden 0x1EE8A,
  letter 0x1EE8B, hidden 0x1EE9C, letter 0x1EEA1, hidden 0x1EEA4, letter 0x1EEA5, hidden 0x1EEAA,
  letter 0x1EEAB, hidden 0x1EEBC, graphic 0x1EEF0, hidden 0x1EEF2, graphic 0x1F000,
  hidden 0x1F02C, graphic 0x1F030, hidden 0x1F094, graphic 0x1F0A0, hidden 0x1F0AF,
  graphic 0x1F0B1, hidden 0x1F0C0, graphic 0x1F0C1, hidden 0x1F0D0, graphic 0x1F0D1,
  hidden 0x1F0F6, graphic 0x1F100, hidden 0x1F1AE, graphic 0x1F1E6, hidden 0x1F203,
  graphic 0x1F210, hidden 0x1F23C, graphic 0x1F240, hidden 0x1F249, graphic 0x1F250,
  hidden 0x1F252, graphic 0x1F260, hidden 0x1F266, graphic 0x1F300, hidden 0x1F6D9,
  graphic 0x1F6DC, hidden 0x1F6ED, graphic 0x1F6F0, hidden 0x1F6FD, graphic 0x1F700,
  hidden 0x1F7DA]

def runsFrom1F7E0 : List Run := [
  graphic 0x1F7E0, hidden 0x1F7EC, graphic 0x1F7F0, hidden 0x1F7F1, graphic 0x1F800,
  hidden 0x1F80C, graphic 0x1F810, hidden 0x1F848, graphic 0x1F850, hidden 0x1F85A,
  graphic 0x1F860, hidden 0x1F888, graphic 0x1F890, hidden 0x1F8AE, graphic 0x1F8B0,
  hidden 0x1F8BC, graphic 0x1F8C0, hidden 0x1F8C2, graphic 0x1F8D0, hidden 0x1F8D9,
  graphic 0x1F900, hidden 0x1FA58, graphic 0x1FA60, hidden 0x1FA6E, graphic 0x1FA70,
  hidden 0x1FA7D, graphic 0x1FA80, hidden 0x1FA8B, graphic 0x1FA8E, hidden 0x1FAC7,
  graphic 0x1FAC8, hidden 0x1FAC9, graphic 0x1FACD, hidden 0x1FADD, graphic 0x1FADF,
  hidden 0x1FAEB, graphic 0x1FAEF, hidden 0x1FAF9, graphic 0x1FB00, hidden 0x1FB93,
  graphic 0x1FB94, digit 0x1FBF0, graphic 0x1FBFA, hidden 0x1FBFB, letter 0x20000, hidden 0x2A6E0,
  letter 0x2A700, hidden 0x2B81E, letter 0x2B820, hidden 0x2CEAE, letter 0x2CEB0, hidden 0x2EBE1,
  letter 0x2EBF0, hidden 0x2EE5E, letter 0x2F800, hidden 0x2FA1E, letter 0x30000, hidden 0x3134B,
  letter 0x31350, hidden 0x3347A, extending 0xE0100, hidden 0xE01F0]

/-- Every code point, from U+0000 on. -/
def categoryRuns : List Run :=
  runsFrom0000 ++ runsFrom03CF ++ runsFrom0949 ++ runsFrom0B05 ++ runsFrom0CCE ++ runsFrom0F85 ++
  runsFrom17B6 ++ runsFrom1C38 ++ runsFrom2108 ++ runsFrom3100 ++ runsFromA9C1 ++ runsFromFE30 ++
  runsFrom10768 ++ runsFrom10F00 ++ runsFrom1133B ++ runsFrom1171D ++ runsFrom11D0A ++
  runsFrom16F4B ++ runsFrom1D515 ++ runsFrom1E6F5 ++ runsFrom1F7E0

end CodeSmell.Text
