import Attest.Text.Table
/-!
# Upper case

`upperCase` maps a text to upper case, character by character and without regard to
language or neighbours. Most characters move by a fixed distance (`shifts`); a few
become several characters (`expansions`), as the sharp s becomes two letters S.
-/

namespace Attest.Text

/-- Characters `first`, `first + step`, … (`count` of them) that all move by `shift`. -/
structure Shift where
  first : Nat
  count : Nat
  step : Nat
  shift : Int

namespace Shift

/-- Whether the run holds the character with number `n`. -/
def holds (r : Shift) (n : Nat) : Bool :=
  r.first ≤ n && (n - r.first) % r.step == 0 && (n - r.first) / r.step < r.count

/-- The number `n` moved by the run's distance. -/
def move (r : Shift) (n : Nat) : Nat := (n + r.shift).toNat

/-- A run written as four decimal numbers between commas. -/
def ofWord? (word : List Char) : Option Shift :=
  match (String.ofList word).splitOn "," with
  | [first, count, step, shift] => do
    pure ⟨← first.toNat?, ← count.toNat?, ← step.toNat?, ← shift.toInt?⟩
  | _ => none

end Shift

namespace Upper

/-- The runs of characters whose upper case is one character. -/
def shiftWords : String :=
  "97,26,1,-32 181,1,1,743 224,23,1,-32 248,7,1,-32 255,1,1,121 257,24,2,-1 305,1,1,-232
  307,3,2,-1 314,8,2,-1 331,23,2,-1 378,3,2,-1 383,1,1,-300 384,1,1,195 387,2,2,-1 392,1,1,-1
  396,1,1,-1 402,1,1,-1 405,1,1,97 409,1,1,-1 410,1,1,163 411,1,1,42561 414,1,1,130 417,3,2,-1
  424,1,1,-1 429,1,1,-1 432,1,1,-1 436,2,2,-1 441,1,1,-1 445,1,1,-1 447,1,1,56 453,1,1,-1
  454,1,1,-2 456,1,1,-1 457,1,1,-2 459,1,1,-1 460,1,1,-2 462,8,2,-1 477,1,1,-79 479,9,2,-1
  498,1,1,-1 499,1,1,-2 501,1,1,-1 505,20,2,-1 547,9,2,-1 572,1,1,-1 575,2,1,10815 578,1,1,-1
  583,5,2,-1 592,1,1,10783 593,1,1,10780 594,1,1,10782 595,1,1,-210 596,1,1,-206 598,2,1,-205
  601,1,1,-202 603,1,1,-203 604,1,1,42319 608,1,1,-205 609,1,1,42315 611,1,1,-207
  612,1,1,42343 613,1,1,42280 614,1,1,42308 616,1,1,-209 617,1,1,-211 618,1,1,42308
  619,1,1,10743 620,1,1,42305 623,1,1,-211 625,1,1,10749 626,1,1,-213 629,1,1,-214
  637,1,1,10727 640,1,1,-218 642,1,1,42307 643,1,1,-218 647,1,1,42282 648,1,1,-218 649,1,1,-69
  650,2,1,-217 652,1,1,-71 658,1,1,-219 669,1,1,42261 670,1,1,42258 837,1,1,84 881,2,2,-1
  887,1,1,-1 891,3,1,130 940,1,1,-38 941,3,1,-37 945,17,1,-32 962,1,1,-31 963,9,1,-32
  972,1,1,-64 973,2,1,-63 976,1,1,-62 977,1,1,-57 981,1,1,-47 982,1,1,-54 983,1,1,-8
  985,12,2,-1 1008,1,1,-86 1009,1,1,-80 1010,1,1,7 1011,1,1,-116 1013,1,1,-96 1016,1,1,-1
  1019,1,1,-1 1072,32,1,-32 1104,16,1,-80 1121,17,2,-1 1163,27,2,-1 1218,7,2,-1 1231,1,1,-15
  1233,48,2,-1 1377,38,1,-48 4304,43,1,3008 4349,3,1,3008 5112,6,1,-8 7296,1,1,-6254
  7297,1,1,-6253 7298,1,1,-6244 7299,2,1,-6242 7301,1,1,-6243 7302,1,1,-6236 7303,1,1,-6181
  7304,1,1,35266 7306,1,1,-1 7545,1,1,35332 7549,1,1,3814 7566,1,1,35384 7681,75,2,-1
  7835,1,1,-59 7841,48,2,-1 7936,8,1,8 7952,6,1,8 7968,8,1,8 7984,8,1,8 8000,6,1,8 8017,4,2,8
  8032,8,1,8 8048,2,1,74 8050,4,1,86 8054,2,1,100 8056,2,1,128 8058,2,1,112 8060,2,1,126
  8112,2,1,8 8126,1,1,-7205 8144,2,1,8 8160,2,1,8 8165,1,1,7 8526,1,1,-28 8560,16,1,-16
  8580,1,1,-1 9424,26,1,-26 11312,48,1,-48 11361,1,1,-1 11365,1,1,-10795 11366,1,1,-10792
  11368,3,2,-1 11379,1,1,-1 11382,1,1,-1 11393,50,2,-1 11500,2,2,-1 11507,1,1,-1
  11520,38,1,-7264 11559,1,1,-7264 11565,1,1,-7264 42561,23,2,-1 42625,14,2,-1 42787,7,2,-1
  42803,31,2,-1 42874,2,2,-1 42879,5,2,-1 42892,1,1,-1 42897,2,2,-1 42900,1,1,48 42903,10,2,-1
  42933,8,2,-1 42952,2,2,-1 42957,8,2,-1 42998,1,1,-1 43859,1,1,-928 43888,80,1,-38864
  65345,26,1,-32 66600,40,1,-40 66776,36,1,-40 66967,11,1,-39 66979,15,1,-39 66995,7,1,-39
  67003,2,1,-39 68800,51,1,-64 68976,22,1,-32 71872,32,1,-32 93792,32,1,-32 93883,25,1,-27
  125218,34,1,-34"

/-- The characters whose upper case is several characters: each with its upper case, in
hexadecimal between commas. -/
def expansionWords : String :=
  "df,53,53 149,2bc,4e 1f0,4a,30c 390,399,308,301 3b0,3a5,308,301 587,535,552 1e96,48,331
  1e97,54,308 1e98,57,30a 1e99,59,30a 1e9a,41,2be 1f50,3a5,313 1f52,3a5,313,300
  1f54,3a5,313,301 1f56,3a5,313,342 1f80,1f08,399 1f81,1f09,399 1f82,1f0a,399 1f83,1f0b,399
  1f84,1f0c,399 1f85,1f0d,399 1f86,1f0e,399 1f87,1f0f,399 1f88,1f08,399 1f89,1f09,399
  1f8a,1f0a,399 1f8b,1f0b,399 1f8c,1f0c,399 1f8d,1f0d,399 1f8e,1f0e,399 1f8f,1f0f,399
  1f90,1f28,399 1f91,1f29,399 1f92,1f2a,399 1f93,1f2b,399 1f94,1f2c,399 1f95,1f2d,399
  1f96,1f2e,399 1f97,1f2f,399 1f98,1f28,399 1f99,1f29,399 1f9a,1f2a,399 1f9b,1f2b,399
  1f9c,1f2c,399 1f9d,1f2d,399 1f9e,1f2e,399 1f9f,1f2f,399 1fa0,1f68,399 1fa1,1f69,399
  1fa2,1f6a,399 1fa3,1f6b,399 1fa4,1f6c,399 1fa5,1f6d,399 1fa6,1f6e,399 1fa7,1f6f,399
  1fa8,1f68,399 1fa9,1f69,399 1faa,1f6a,399 1fab,1f6b,399 1fac,1f6c,399 1fad,1f6d,399
  1fae,1f6e,399 1faf,1f6f,399 1fb2,1fba,399 1fb3,391,399 1fb4,386,399 1fb6,391,342
  1fb7,391,342,399 1fbc,391,399 1fc2,1fca,399 1fc3,397,399 1fc4,389,399 1fc6,397,342
  1fc7,397,342,399 1fcc,397,399 1fd2,399,308,300 1fd3,399,308,301 1fd6,399,342
  1fd7,399,308,342 1fe2,3a5,308,300 1fe3,3a5,308,301 1fe4,3a1,313 1fe6,3a5,342
  1fe7,3a5,308,342 1ff2,1ffa,399 1ff3,3a9,399 1ff4,38f,399 1ff6,3a9,342 1ff7,3a9,342,399
  1ffc,3a9,399 fb00,46,46 fb01,46,49 fb02,46,4c fb03,46,46,49 fb04,46,46,4c fb05,53,54
  fb06,53,54 fb13,544,546 fb14,544,535 fb15,544,53b fb16,54e,546 fb17,544,53d"

/-- The runs of `shiftWords`. -/
def shifts : List Shift := (words shiftWords).filterMap Shift.ofWord?

/-- The entries of `expansionWords`. -/
def expansions : List (Nat × List Char) :=
  (words expansionWords).filterMap fun word =>
    match ((String.ofList word).splitOn ",").mapM (hexValue? ·.toList) with
    | some (n :: image) => some (n, image.map Char.ofNat)
    | _ => none

/-- The upper case of one character. -/
def ofChar (c : Char) : List Char :=
  if c.toNat < 128 then [c.toUpper]
  else match expansions.find? (·.1 == c.toNat) with
    | some (_, image) => image
    | none =>
      match shifts.find? (·.holds c.toNat) with
      | some run => [Char.ofNat (run.move c.toNat)]
      | none => [c]

end Upper

/-- A text in upper case. -/
def upperCase (s : String) : String := String.ofList (s.toList.flatMap Upper.ofChar)

end Attest.Text
