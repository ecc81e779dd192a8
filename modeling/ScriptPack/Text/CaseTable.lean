import ScriptPack.Text.Interval

/-!
The case mappings of single characters. A run maps every `step`-th character from `first` to
`last` by a constant offset; an expansion maps one character to several.
-/

namespace ScriptPack.Text

structure CaseRun where
  first : Nat
  last : Nat
  step : Nat
  offset : Int

def CaseRun.covers (run : CaseRun) (point : Nat) : Bool :=
  run.first ≤ point && point ≤ run.last && (point - run.first) % run.step == 0

/-- The run that maps every character back. -/
def CaseRun.inverse (run : CaseRun) : CaseRun where
  first := (run.first + run.offset).toNat
  last := (run.last + run.offset).toNat
  step := run.step
  offset := -run.offset

/-- Runs of one character behind `point`, given by the gap before each and its offset in turn. -/
def singlesFrom (point : Nat) : List Int → List CaseRun
  | gap :: offset :: rest =>
      ⟨point + gap.toNat, point + gap.toNat, 1, offset⟩ :: singlesFrom (point + gap.toNat) rest
  | _ => []

def runsFrom (point : Nat) : List (Nat × Nat × Nat × Int) → List CaseRun
  | [] => []
  | (gap, length, step, offset) :: rest =>
      ⟨point + gap, point + gap + length, step, offset⟩ :: runsFrom (point + gap + length) rest

def upperRuns : List CaseRun := runsFrom 0 [
  (97,25,1,-32),(102,22,1,-32),(2,6,1,-32),(3,46,2,-1),(4,4,2,-1),(3,14,2,-1),(3,44,2,-1),
  (3,4,2,-1),(5,2,2,-1),(28,4,2,-1),(15,2,2,-1),(24,14,2,-1),(3,16,2,-1),(10,38,2,-1),(4,16,2,-1),
  (12,1,1,10815),(7,8,2,-1),(7,1,1,-205),(51,1,1,-217),(230,2,2,-1),(8,2,1,130),(48,2,1,-37),
  (2,16,1,-32),(2,8,1,-32),(2,1,1,-63),(11,22,2,-1),(65,31,1,-32),(1,15,1,-80),(2,32,2,-1),
  (10,52,2,-1),(3,12,2,-1),(3,94,2,-1),(50,37,1,-48),(2890,42,1,3008),(3,2,1,3008),(761,5,1,-8),
  (2182,1,1,-6242),(381,148,2,-1),(12,94,2,-1),(1,7,1,8),(9,5,1,8),(11,7,1,8),(9,7,1,8),(9,5,1,8),
  (12,6,2,8),(9,7,1,8),(9,1,1,74),(1,3,1,86),(1,1,1,100),(1,1,1,128),(1,1,1,112),(1,1,1,126),
  (51,1,1,8),(31,1,1,8),(15,1,1,8),(399,15,1,-16),(849,25,1,-26),(1863,47,1,-48),(9,4,2,-1),
  (21,98,2,-1),(9,2,2,-1),(18,37,1,-7264),(31004,44,2,-1),(20,26,2,-1),(136,12,2,-1),(4,60,2,-1),
  (11,2,2,-1),(3,8,2,-1),(10,2,2,-1),(4,18,2,-1),(12,14,2,-1),(5,2,2,-1),(3,14,2,-1),
  (917,79,1,-38864),(21378,25,1,-32),(1230,39,1,-40),(137,35,1,-40),(156,10,1,-39),(2,14,1,-39),
  (2,6,1,-39),(2,1,1,-39),(1796,50,1,-64),(126,21,1,-32),(2875,31,1,-32),(21889,31,1,-32),
  (60,24,1,-27),(31311,33,1,-34)] ++ singlesFrom 0 [
  181,743,74,121,50,-232,78,-300,1,195,8,-1,4,-1,6,-1,3,97,4,-1,1,163,1,42561,3,130,10,-1,5,-1,3,-1,
  9,-1,4,-1,2,56,6,-1,1,-2,2,-1,1,-2,2,-1,1,-2,17,-79,21,-1,1,-2,2,-1,71,-1,6,-1,14,10783,1,10780,1,
  10782,1,-210,1,-206,5,-202,2,-203,1,42319,4,-205,1,42315,2,-207,1,42343,1,42280,1,42308,2,-209,1,
  -211,1,42308,1,10743,1,42305,3,-211,2,10749,1,-213,3,-214,8,10727,3,-218,2,42307,1,-218,4,42282,1,
  -218,1,-69,3,-71,6,-219,11,42261,1,42258,167,84,50,-1,53,-38,22,-31,10,-64,4,-62,1,-57,4,-47,1,
  -54,1,-8,25,-86,1,-80,1,7,1,-116,2,-96,3,-1,3,-1,212,-15,6065,-6254,1,-6253,1,-6244,3,-6243,1,
  -6236,1,-6181,1,35266,2,-1,239,35332,4,3814,17,35384,269,-59,291,-7205,39,7,361,-28,54,-1,2781,-1,
  4,-10795,1,-10792,13,-1,3,-1,125,-1,52,-7264,6,-7264,31327,-1,8,48,98,-1,861,-928]

/-- The letters with an iota below: sixteen from `first`, both cases of the eight from `plain`. -/
def iotaExpansions (first plain : Nat) : List (Nat × List Nat) :=
  (List.range 16).map fun n => (first + n, [plain + n % 8, 921])

def upperExpansions : List (Nat × List Nat) :=
  iotaExpansions 8064 7944 ++ iotaExpansions 8080 7976 ++ iotaExpansions 8096 8040 ++ [
  (223, [83, 83]), (329, [700, 78]), (496, [74, 780]), (912, [921, 776, 769]),
  (944, [933, 776, 769]), (1415, [1333, 1362]), (7830, [72, 817]), (7831, [84, 776]),
  (7832, [87, 778]), (7833, [89, 778]), (7834, [65, 702]), (8016, [933, 787]),
  (8018, [933, 787, 768]), (8020, [933, 787, 769]), (8022, [933, 787, 834]), (8114, [8122, 921]),
  (8115, [913, 921]), (8116, [902, 921]), (8118, [913, 834]), (8119, [913, 834, 921]),
  (8124, [913, 921]), (8130, [8138, 921]), (8131, [919, 921]), (8132, [905, 921]),
  (8134, [919, 834]), (8135, [919, 834, 921]), (8140, [919, 921]), (8146, [921, 776, 768]),
  (8147, [921, 776, 769]), (8150, [921, 834]), (8151, [921, 776, 834]), (8162, [933, 776, 768]),
  (8163, [933, 776, 769]), (8164, [929, 787]), (8166, [933, 834]), (8167, [933, 776, 834]),
  (8178, [8186, 921]), (8179, [937, 921]), (8180, [911, 921]), (8182, [937, 834]),
  (8183, [937, 834, 921]), (8188, [937, 921]), (64256, [70, 70]), (64257, [70, 73]),
  (64258, [70, 76]), (64259, [70, 70, 73]), (64260, [70, 70, 76]), (64261, [83, 84]),
  (64262, [83, 84]), (64275, [1348, 1350]), (64276, [1348, 1333]), (64277, [1348, 1339]),
  (64278, [1358, 1350]), (64279, [1348, 1341])]

/-- Lower case undoes upper case; what it does otherwise comes first. -/
def lowerRuns : List CaseRun := runsFrom 0 [
  (8072, 7, 1, -8), (9, 7, 1, -8), (9, 7, 1, -8)] ++ singlesFrom 0 [
  452,2,1,1,2,2,1,1,2,2,1,1,38,2,1,1,514,-60,6826,-7615,286,-9,16,-9,48,-9,298,-7517,4,-8383,1,-8262] ++
  upperRuns.map CaseRun.inverse

def lowerExpansions : List (Nat × List Nat) := [
  (304, [105, 775])]

def casedIntervals : List (Nat × Nat) := intervalsFrom 0 [
  65,25,7,25,48,0,11,0,5,0,6,22,2,30,2,194,2,3,5,207,3,34,8,1,31,4,97,0,43,3,3,1,3,3,2,0,7,0,2,2,2,
  0,2,19,2,82,2,138,9,165,2,37,10,40,2840,37,2,0,6,0,3,42,2,3,673,85,3,5,2179,10,6,42,3,2,65,191,65,
  277,3,5,3,37,3,5,3,7,2,0,2,0,2,0,2,30,3,52,2,6,2,0,4,2,2,6,4,3,3,5,5,12,6,2,2,6,117,0,14,0,17,12,
  102,0,5,0,3,9,2,0,4,4,7,0,2,0,2,0,2,3,2,5,5,0,3,3,6,4,5,0,18,31,4,1,818,51,1815,228,7,3,4,1,13,37,
  2,0,6,0,30995,45,19,29,133,101,4,3,2,76,21,5,2,2,822,42,2,13,7,79,20289,6,13,4,1034,25,7,25,1190,
  79,97,35,5,35,117,10,2,14,2,6,2,1,2,10,2,14,2,6,2,1,452,0,3,2,2,41,2,8,1222,50,14,50,94,21,11,21,
  2843,63,21857,63,33,24,3,24,25901,84,2,70,2,1,3,0,3,1,3,3,2,11,2,0,2,6,2,64,2,3,3,7,2,6,2,27,2,3,
  2,4,2,0,4,6,2,339,3,24,2,24,2,30,2,24,2,30,2,24,2,30,2,24,2,30,2,24,2,7,1845,9,2,19,7,5,262,61,
  2195,67,2029,25,7,25,7,25]

def caseIgnorableIntervals : List (Nat × Nat) := intervalsFrom 0 [
  39,0,7,0,12,0,36,0,2,0,72,0,5,0,2,0,5,0,3,1,504,191,5,1,5,0,10,1,2,0,252,6,208,0,6,0,50,44,2,0,2,
  1,2,1,2,0,45,0,12,5,11,10,2,0,36,0,11,20,17,0,102,7,2,9,2,3,34,0,2,0,31,26,92,10,59,10,5,0,3,0,25,
  23,44,2,45,0,8,1,6,8,42,57,56,0,2,0,5,7,5,0,4,6,11,1,14,0,16,0,59,0,5,3,9,0,21,1,27,0,3,1,58,0,5,
  1,5,1,3,2,4,0,31,1,4,0,12,1,58,0,5,4,2,1,5,0,21,1,23,5,2,0,59,0,3,0,2,3,9,0,8,1,12,1,31,0,62,0,13,
  0,51,0,4,0,56,0,2,2,6,2,2,3,8,1,12,1,30,0,59,0,3,0,7,0,6,1,21,1,29,1,58,1,5,3,9,0,21,1,30,0,73,0,
  8,2,2,0,91,0,3,6,12,8,99,0,3,8,10,0,2,6,74,1,28,0,2,0,2,0,56,13,2,4,2,1,6,10,2,35,10,0,103,3,2,5,
  2,1,3,1,26,1,5,2,17,3,14,0,3,1,7,0,16,0,95,0,609,2,947,2,30,1,31,1,31,1,65,1,2,6,9,0,3,10,4,0,6,0,
  46,4,52,0,66,1,35,0,119,2,5,1,10,0,7,2,220,1,3,0,59,0,2,6,2,0,2,0,3,7,7,9,3,0,40,0,9,45,3,11,21,3,
  49,0,2,4,2,0,6,0,41,8,13,1,33,3,3,1,2,2,57,0,2,1,4,0,2,2,59,7,3,1,65,5,83,2,2,12,2,6,5,0,7,0,4,1,
  51,62,14,0,35,100,446,0,2,2,12,2,14,2,14,2,14,1,13,4,9,1,11,0,3,0,3,4,50,4,2,9,2,0,14,0,17,12,52,
  32,2956,1,114,2,126,0,16,0,97,31,48,0,470,0,37,3,4,4,6,0,94,5,94,2,28439,0,1251,5,271,0,99,3,2,9,
  2,0,29,3,81,1,15,33,79,0,24,2,103,3,4,1,9,0,4,0,5,0,26,1,6,0,152,1,27,17,14,0,39,7,26,10,47,2,49,
  0,3,3,3,1,18,0,22,1,67,5,3,1,3,1,13,0,9,0,36,0,12,0,52,0,2,2,3,1,6,1,2,0,28,0,15,1,6,1,2,0,101,4,
  10,2,122,0,3,0,5,0,20273,0,148,16,574,15,4,0,13,15,35,0,3,0,170,0,8,0,7,0,12,0,36,0,2,0,48,0,46,1,
  68,0,22,2,514,0,227,0,150,4,1030,5,2,41,2,8,583,2,2,1,6,3,41,2,5,0,166,1,574,3,39,0,27,4,2,0,316,
  1,25,0,53,5,71,10,50,3,124,0,55,14,42,0,3,1,11,2,50,3,3,1,3,0,5,0,11,0,51,2,37,4,2,7,63,0,13,1,53,
  8,11,3,3,0,96,2,3,0,2,1,7,0,3,0,158,0,4,7,22,1,58,1,4,0,38,6,4,4,71,5,14,0,2,0,2,0,15,1,86,7,3,2,
  2,0,24,0,85,5,2,0,5,1,2,1,239,3,7,1,2,1,28,1,86,7,3,0,2,1,107,0,2,0,3,5,2,0,102,0,2,0,3,3,2,4,260,
  8,2,1,257,1,2,0,5,0,145,3,3,1,5,0,33,9,41,5,3,3,9,0,10,5,3,2,47,12,2,1,199,0,2,2,2,0,202,6,2,5,2,
  0,83,21,3,6,2,1,2,1,123,5,4,0,2,1,2,6,2,0,73,1,4,0,2,0,66,0,282,1,12,1,53,4,6,0,2,0,24,0,5334,16,
  7,14,11465,11,4,2,2497,4,60,6,10,3,509,2,41,1,483,0,64,16,65,1,2,1,14,1,16381,3,2,6,2,1,3231,1,2,
  3,4701,45,3,22,545,2,10,15,3,6,31,3,149,2,1980,54,5,49,9,0,15,0,23,4,2,14,1361,6,2,16,3,6,2,1,2,4,
  6,61,34,0,161,13,369,0,62,3,508,4,255,1,244,0,3,0,8,1,6,0,10,0,465,6,110,7,2736,4,789506,0,31,95,
  129,239]

end ScriptPack.Text
