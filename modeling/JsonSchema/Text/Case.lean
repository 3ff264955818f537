import JsonSchema.Text.InversionList

/-!
# Letters without regard to case

Two characters agree without regard to case when their lower-case forms are equal or have one
upper-case form. The tables are those of version 14 of the Unicode character database.
-/

namespace JsonSchema.Text

/-- The characters `first`, `first + step`, … up to `last` have the lower-case forms that lie
`shift` further. -/
structure CaseRun where
  first : Nat
  last : Nat
  step : Nat
  shift : Int

def lowerRuns : List CaseRun := [
  ⟨65, 90, 1, 32⟩, ⟨192, 214, 1, 32⟩, ⟨216, 222, 1, 32⟩, ⟨256, 302, 2, 1⟩, ⟨304, 304, 1, -199⟩,
  ⟨306, 310, 2, 1⟩, ⟨313, 327, 2, 1⟩, ⟨330, 374, 2, 1⟩, ⟨376, 376, 1, -121⟩, ⟨377, 381, 2, 1⟩,
  ⟨385, 385, 1, 210⟩, ⟨386, 388, 2, 1⟩, ⟨390, 390, 1, 206⟩, ⟨391, 391, 1, 1⟩, ⟨393, 394, 1,
  205⟩, ⟨395, 395, 1, 1⟩, ⟨398, 398, 1, 79⟩, ⟨399, 399, 1, 202⟩, ⟨400, 400, 1, 203⟩, ⟨401, 401,
  1, 1⟩, ⟨403, 403, 1, 205⟩, ⟨404, 404, 1, 207⟩, ⟨406, 406, 1, 211⟩, ⟨407, 407, 1, 209⟩, ⟨408,
  408, 1, 1⟩, ⟨412, 412, 1, 211⟩, ⟨413, 413, 1, 213⟩, ⟨415, 415, 1, 214⟩, ⟨416, 420, 2, 1⟩,
  ⟨422, 422, 1, 218⟩, ⟨423, 423, 1, 1⟩, ⟨425, 425, 1, 218⟩, ⟨428, 428, 1, 1⟩, ⟨430, 430, 1,
  218⟩, ⟨431, 431, 1, 1⟩, ⟨433, 434, 1, 217⟩, ⟨435, 437, 2, 1⟩, ⟨439, 439, 1, 219⟩, ⟨440, 440,
  1, 1⟩, ⟨444, 444, 1, 1⟩, ⟨452, 452, 1, 2⟩, ⟨453, 453, 1, 1⟩, ⟨455, 455, 1, 2⟩, ⟨456, 456, 1,
  1⟩, ⟨458, 458, 1, 2⟩, ⟨459, 475, 2, 1⟩, ⟨478, 494, 2, 1⟩, ⟨497, 497, 1, 2⟩, ⟨498, 500, 2, 1⟩,
  ⟨502, 502, 1, -97⟩, ⟨503, 503, 1, -56⟩, ⟨504, 542, 2, 1⟩, ⟨544, 544, 1, -130⟩, ⟨546, 562, 2,
  1⟩, ⟨570, 570, 1, 10795⟩, ⟨571, 571, 1, 1⟩, ⟨573, 573, 1, -163⟩, ⟨574, 574, 1, 10792⟩, ⟨577,
  577, 1, 1⟩, ⟨579, 579, 1, -195⟩, ⟨580, 580, 1, 69⟩, ⟨581, 581, 1, 71⟩, ⟨582, 590, 2, 1⟩, ⟨880,
  882, 2, 1⟩, ⟨886, 886, 1, 1⟩, ⟨895, 895, 1, 116⟩, ⟨902, 902, 1, 38⟩, ⟨904, 906, 1, 37⟩, ⟨908,
  908, 1, 64⟩, ⟨910, 911, 1, 63⟩, ⟨913, 929, 1, 32⟩, ⟨931, 939, 1, 32⟩, ⟨975, 975, 1, 8⟩, ⟨984,
  1006, 2, 1⟩, ⟨1012, 1012, 1, -60⟩, ⟨1015, 1015, 1, 1⟩, ⟨1017, 1017, 1, -7⟩, ⟨1018, 1018, 1,
  1⟩, ⟨1021, 1023, 1, -130⟩, ⟨1024, 1039, 1, 80⟩, ⟨1040, 1071, 1, 32⟩, ⟨1120, 1152, 2, 1⟩,
  ⟨1162, 1214, 2, 1⟩, ⟨1216, 1216, 1, 15⟩, ⟨1217, 1229, 2, 1⟩, ⟨1232, 1326, 2, 1⟩, ⟨1329, 1366,
  1, 48⟩, ⟨4256, 4293, 1, 7264⟩, ⟨4295, 4295, 1, 7264⟩, ⟨4301, 4301, 1, 7264⟩, ⟨5024, 5103, 1,
  38864⟩, ⟨5104, 5109, 1, 8⟩, ⟨7312, 7354, 1, -3008⟩, ⟨7357, 7359, 1, -3008⟩, ⟨7680, 7828, 2,
  1⟩, ⟨7838, 7838, 1, -7615⟩, ⟨7840, 7934, 2, 1⟩, ⟨7944, 7951, 1, -8⟩, ⟨7960, 7965, 1, -8⟩,
  ⟨7976, 7983, 1, -8⟩, ⟨7992, 7999, 1, -8⟩, ⟨8008, 8013, 1, -8⟩, ⟨8025, 8031, 2, -8⟩, ⟨8040,
  8047, 1, -8⟩, ⟨8072, 8079, 1, -8⟩, ⟨8088, 8095, 1, -8⟩, ⟨8104, 8111, 1, -8⟩, ⟨8120, 8121, 1,
  -8⟩, ⟨8122, 8123, 1, -74⟩, ⟨8124, 8124, 1, -9⟩, ⟨8136, 8139, 1, -86⟩, ⟨8140, 8140, 1, -9⟩,
  ⟨8152, 8153, 1, -8⟩, ⟨8154, 8155, 1, -100⟩, ⟨8168, 8169, 1, -8⟩, ⟨8170, 8171, 1, -112⟩, ⟨8172,
  8172, 1, -7⟩, ⟨8184, 8185, 1, -128⟩, ⟨8186, 8187, 1, -126⟩, ⟨8188, 8188, 1, -9⟩, ⟨8486, 8486,
  1, -7517⟩, ⟨8490, 8490, 1, -8383⟩, ⟨8491, 8491, 1, -8262⟩, ⟨8498, 8498, 1, 28⟩, ⟨8544, 8559,
  1, 16⟩, ⟨8579, 8579, 1, 1⟩, ⟨9398, 9423, 1, 26⟩, ⟨11264, 11311, 1, 48⟩, ⟨11360, 11360, 1, 1⟩,
  ⟨11362, 11362, 1, -10743⟩, ⟨11363, 11363, 1, -3814⟩, ⟨11364, 11364, 1, -10727⟩, ⟨11367, 11371,
  2, 1⟩, ⟨11373, 11373, 1, -10780⟩, ⟨11374, 11374, 1, -10749⟩, ⟨11375, 11375, 1, -10783⟩,
  ⟨11376, 11376, 1, -10782⟩, ⟨11378, 11378, 1, 1⟩, ⟨11381, 11381, 1, 1⟩, ⟨11390, 11391, 1,
  -10815⟩, ⟨11392, 11490, 2, 1⟩, ⟨11499, 11501, 2, 1⟩, ⟨11506, 11506, 1, 1⟩, ⟨42560, 42604, 2,
  1⟩, ⟨42624, 42650, 2, 1⟩, ⟨42786, 42798, 2, 1⟩, ⟨42802, 42862, 2, 1⟩, ⟨42873, 42875, 2, 1⟩,
  ⟨42877, 42877, 1, -35332⟩, ⟨42878, 42886, 2, 1⟩, ⟨42891, 42891, 1, 1⟩, ⟨42893, 42893, 1,
  -42280⟩, ⟨42896, 42898, 2, 1⟩, ⟨42902, 42920, 2, 1⟩, ⟨42922, 42922, 1, -42308⟩, ⟨42923, 42923,
  1, -42319⟩, ⟨42924, 42924, 1, -42315⟩, ⟨42925, 42925, 1, -42305⟩, ⟨42926, 42926, 1, -42308⟩,
  ⟨42928, 42928, 1, -42258⟩, ⟨42929, 42929, 1, -42282⟩, ⟨42930, 42930, 1, -42261⟩, ⟨42931,
  42931, 1, 928⟩, ⟨42932, 42946, 2, 1⟩, ⟨42948, 42948, 1, -48⟩, ⟨42949, 42949, 1, -42307⟩,
  ⟨42950, 42950, 1, -35384⟩, ⟨42951, 42953, 2, 1⟩, ⟨42960, 42960, 1, 1⟩, ⟨42966, 42968, 2, 1⟩,
  ⟨42997, 42997, 1, 1⟩, ⟨65313, 65338, 1, 32⟩, ⟨66560, 66599, 1, 40⟩, ⟨66736, 66771, 1, 40⟩,
  ⟨66928, 66938, 1, 39⟩, ⟨66940, 66954, 1, 39⟩, ⟨66956, 66962, 1, 39⟩, ⟨66964, 66965, 1, 39⟩,
  ⟨68736, 68786, 1, 64⟩, ⟨71840, 71871, 1, 32⟩, ⟨93760, 93791, 1, 32⟩, ⟨125184, 125217, 1, 34⟩]

/-- Lower-case forms that differ and have one upper-case form. -/
def sharedUpperCase : List (List Nat) := [
  [105, 305], [115, 383], [181, 956], [837, 953, 8126], [912, 8147], [944, 8163], [946, 976],
  [949, 1013], [952, 977], [954, 1008], [960, 982], [961, 1009], [962, 963], [966, 981], [1074,
  7296], [1076, 7297], [1086, 7298], [1089, 7299], [1090, 7300, 7301], [1098, 7302], [1123,
  7303], [7304, 42571], [7777, 7835], [64261, 64262]]

def cased : InversionList where
  changes := #[
    65, 91, 97, 123, 181, 182, 192, 215, 216, 247, 248, 312, 313, 397, 398, 411, 412, 426, 428,
    442, 444, 446, 447, 448, 452, 545, 546, 564, 570, 597, 598, 600, 601, 602, 603, 605, 608,
    610, 611, 612, 613, 615, 616, 621, 623, 624, 625, 627, 629, 630, 637, 638, 640, 641, 642,
    644, 647, 653, 658, 659, 669, 671, 837, 838, 880, 884, 886, 888, 891, 894, 895, 896, 902,
    903, 904, 907, 908, 909, 910, 930, 931, 978, 981, 1014, 1015, 1020, 1021, 1154, 1162, 1328,
    1329, 1367, 1377, 1416, 4256, 4294, 4295, 4296, 4301, 4302, 4304, 4347, 4349, 4352, 5024,
    5110, 5112, 5118, 7296, 7305, 7312, 7355, 7357, 7360, 7545, 7546, 7549, 7550, 7566, 7567,
    7680, 7836, 7838, 7839, 7840, 7958, 7960, 7966, 7968, 8006, 8008, 8014, 8016, 8024, 8025,
    8026, 8027, 8028, 8029, 8030, 8031, 8062, 8064, 8117, 8118, 8125, 8126, 8127, 8130, 8133,
    8134, 8141, 8144, 8148, 8150, 8156, 8160, 8173, 8178, 8181, 8182, 8189, 8486, 8487, 8490,
    8492, 8498, 8499, 8526, 8527, 8544, 8576, 8579, 8581, 9398, 9450, 11264, 11377, 11378,
    11380, 11381, 11383, 11390, 11492, 11499, 11503, 11506, 11508, 11520, 11558, 11559, 11560,
    11565, 11566, 42560, 42606, 42624, 42652, 42786, 42800, 42802, 42864, 42873, 42888, 42891,
    42894, 42896, 42901, 42902, 42927, 42928, 42955, 42960, 42962, 42966, 42970, 42997, 42999,
    43859, 43860, 43888, 43968, 64256, 64263, 64275, 64280, 65313, 65339, 65345, 65371, 66560,
    66640, 66736, 66772, 66776, 66812, 66928, 66939, 66940, 66955, 66956, 66963, 66964, 66966,
    66967, 66978, 66979, 66994, 66995, 67002, 67003, 67005, 68736, 68787, 68800, 68851, 71840,
    71904, 93760, 93824, 125184, 125252]

/-- The characters in lower case that stand apart from the least of their upper-case forms, if they
have one, with the first character of what they are in upper case. -/
def irregularCapitals : List (Nat × Nat) := [
  (181, 924), (223, 83), (305, 73), (329, 700), (383, 83), (496, 74), (837, 921), (912, 921),
  (944, 933), (962, 931), (976, 914), (977, 920), (981, 934), (982, 928), (1008, 922),
  (1009, 929), (1013, 917), (1415, 1333), (7296, 1042), (7297, 1044), (7298, 1054), (7299, 1057),
  (7300, 1058), (7301, 1058), (7302, 1066), (7303, 1122), (7304, 42570), (7830, 72), (7831, 84),
  (7832, 87), (7833, 89), (7834, 65), (7835, 7776), (8016, 933), (8018, 933), (8020, 933),
  (8022, 933), (8064, 7944), (8065, 7945), (8066, 7946), (8067, 7947), (8068, 7948), (8069, 7949),
  (8070, 7950), (8071, 7951), (8080, 7976), (8081, 7977), (8082, 7978), (8083, 7979),
  (8084, 7980), (8085, 7981), (8086, 7982), (8087, 7983), (8096, 8040), (8097, 8041),
  (8098, 8042), (8099, 8043), (8100, 8044), (8101, 8045), (8102, 8046), (8103, 8047),
  (8114, 8122), (8115, 913), (8116, 902), (8118, 913), (8119, 913), (8126, 921), (8130, 8138),
  (8131, 919), (8132, 905), (8134, 919), (8135, 919), (8146, 921), (8147, 921), (8150, 921),
  (8151, 921), (8162, 933), (8163, 933), (8164, 929), (8166, 933), (8167, 933), (8178, 8186),
  (8179, 937), (8180, 911), (8182, 937), (8183, 937), (64256, 70), (64257, 70), (64258, 70),
  (64259, 70), (64260, 70), (64261, 83), (64262, 83), (64275, 1348), (64276, 1348), (64277, 1348),
  (64278, 1358), (64279, 1348)]

def CaseRun.contains (run : CaseRun) (code : Nat) : Bool :=
  run.first ≤ code && code ≤ run.last && (code - run.first) % run.step = 0

def lower (code : Nat) : Nat :=
  match lowerRuns.find? (·.contains code) with
  | some run => ((code : Int) + run.shift).toNat
  | none => code

def upperForms (code : Nat) : List Nat :=
  lowerRuns.filterMap fun run =>
    let source := ((code : Int) - run.shift).toNat
    if run.contains source then some source else none

/-- The first character of what a character in lower case is in upper case, itself if it has no
other case. -/
def capital (code : Nat) : Nat :=
  (irregularCapitals.lookup code).getD ((upperForms code).min?.getD code)

def caseVariants (code : Nat) : List Nat :=
  let form := lower code
  let forms := (sharedUpperCase.find? (·.contains form)).getD [form]
  forms.flatMap fun other => other :: upperForms other

def lowerAscii (code : Nat) : Nat :=
  if 65 ≤ code && code ≤ 90 then code + 32 else code

end JsonSchema.Text
