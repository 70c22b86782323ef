import Scorecard.Text.CharClass

set_option autoImplicit false

/-! # Compatibility normal form of identifiers

Identifiers are compared in the normal form NFKC of Unicode 14: characters are decomposed with their
compatibility mappings, combining marks are put in canonical order, and the result is composed
again. The tables list the mappings of identifier characters, the combining classes, and the pairs
that compose; Hangul syllables follow by arithmetic.
-/

namespace Scorecard.Text

/-- The parts of a word between occurrences of a separator. -/
def parts (separator : Char) (word : List Char) : List (List Char) := word.splitOn separator

/-- A run of code points starting at `first` that share a mapping: the `i`-th of them has `data`
with its first number raised by `i`. -/
structure MappedRun where
  first : Nat
  count : Nat
  data : List Nat

/-- Reads words `gap*count:data`, where a missing gap is zero and a missing count is one. -/
def mappedRuns (start : Nat) : List (List Char) → List MappedRun
  | [] => []
  | word :: rest =>
    let (range, data) := match parts ':' word with
      | [range, data] => (range, data)
      | _ => ([], word)
    let (gap, count) := match parts '*' range with
      | [gap, count] => (ofHex gap, ofHex count)
      | _ => (ofHex range, 1)
    let first := start + gap
    ⟨first, count, (parts ',' data).map ofHex⟩ :: mappedRuns (first + count) rest

/-- Full compatibility decompositions of identifier characters. -/
def decompositions : List MappedRun := mappedRuns 0 (words [
  "aa:61 a:3bc 4:6f 5:41,300 41,301 41,302 41,303 41,308 41,30a 1:43,327 45,300 45,301 45,302",
  "45,308 49,300 49,301 49,302 49,308 1:4e,303 4f,300 4f,301 4f,302 4f,303 4f,308 2:55,300 55,301",
  "55,302 55,308 59,301 2:61,300 61,301 61,302 61,303 61,308 61,30a 1:63,327 65,300 65,301 65,302",
  "65,308 69,300 69,301 69,302 69,308 1:6e,303 6f,300 6f,301 6f,302 6f,303 6f,308 2:75,300 75,301",
  "75,302 75,308 79,301 1:79,308 41,304 61,304 41,306 61,306 41,328 61,328 43,301 63,301 43,302",
  "63,302 43,307 63,307 43,30c 63,30c 44,30c 64,30c 2:45,304 65,304 45,306 65,306 45,307 65,307",
  "45,328 65,328 45,30c 65,30c 47,302 67,302 47,306 67,306 47,307 67,307 47,327 67,327 48,302",
  "68,302 2:49,303 69,303 49,304 69,304 49,306 69,306 49,328 69,328 49,307 1:49,4a 69,6a 4a,302",
  "6a,302 4b,327 6b,327 1:4c,301 6c,301 4c,327 6c,327 4c,30c 6c,30c 4c,b7 6c,b7 2:4e,301 6e,301",
  "4e,327 6e,327 4e,30c 6e,30c 2bc,6e 2:4f,304 6f,304 4f,306 6f,306 4f,30b 6f,30b 2:52,301 72,301",
  "52,327 72,327 52,30c 72,30c 53,301 73,301 53,302 73,302 53,327 73,327 53,30c 73,30c 54,327",
  "74,327 54,30c 74,30c 2:55,303 75,303 55,304 75,304 55,306 75,306 55,30a 75,30a 55,30b 75,30b",
  "55,328 75,328 57,302 77,302 59,302 79,302 59,308 5a,301 7a,301 5a,307 7a,307 5a,30c 7a,30c 73",
  "20:4f,31b 6f,31b d:55,31b 75,31b 13:44,5a,30c 44,7a,30c 64,7a,30c 4c,4a 4c,6a 6c,6a 4e,4a 4e,6a",
  "6e,6a 41,30c 61,30c 49,30c 69,30c 4f,30c 6f,30c 55,30c 75,30c 55,308,304 75,308,304 55,308,301",
  "75,308,301 55,308,30c 75,308,30c 55,308,300 75,308,300 1:41,308,304 61,308,304 41,307,304",
  "61,307,304 c6,304 e6,304 2:47,30c 67,30c 4b,30c 6b,30c 4f,328 6f,328 4f,328,304 6f,328,304",
  "1b7,30c 292,30c 6a,30c 44,5a 44,7a 64,7a 47,301 67,301 2:4e,300 6e,300 41,30a,301 61,30a,301",
  "c6,301 e6,301 d8,301 f8,301 41,30f 61,30f 41,311 61,311 45,30f 65,30f 45,311 65,311 49,30f",
  "69,30f 49,311 69,311 4f,30f 6f,30f 4f,311 6f,311 52,30f 72,30f 52,311 72,311 55,30f 75,30f",
  "55,311 75,311 53,326 73,326 54,326 74,326 2:48,30c 68,30c 6:41,307 61,307 45,327 65,327",
  "4f,308,304 6f,308,304 4f,303,304 6f,303,304 4f,307 6f,307 4f,307,304 6f,307,304 59,304 79,304",
  "7c:68 266 6a 72 279 27b 281 77 79 27:263 6c 73 78 295 5b*2:300 1:313 308,301 2f:2b9 11:391,301",
  "b7 395,301 397,301 399,301 1:39f,301 1:3a5,301 3a9,301 3b9,308,301 19:399,308 3a5,308 3b1,301",
  "3b5,301 3b7,301 3b9,301 3c5,308,301 19:3b9,308 3c5,308 3bf,301 3c5,301 3c9,301 1:3b2 3b8 3a5",
  "3a5,301 3a5,308 3c6 3c0 19:3ba *2:3c1 1:398 3b5 3:3a3 6:415,300 415,308 1:413,301 3:406,308",
  "4:41a,301 418,300 423,306 a:418,306 1f:438,306 16:435,300 435,308 1:433,301 3:456,308 4:43a,301",
  "438,300 443,306 17:474,30f 475,30f 49:416,306 436,306 d:410,306 430,306 410,308 430,308",
  "2:415,306 435,306 2:4d8,308 4d9,308 416,308 436,308 417,308 437,308 2:418,304 438,304 418,308",
  "438,308 41e,308 43e,308 2:4e8,308 4e9,308 42d,308 44d,308 423,304 443,304 423,308 443,308",
  "423,30b 443,30b 427,308 447,308 2:42b,308 44b,308 8d:565,582 9a:627,653 627,654 648,654 627,655",
  "64a,654 4e:627,674 648,674 6c7,674 64a,674 47:6d5,654 1:6c1,654 10:6d2,654 255:928,93c",
  "7:930,93c 2:933,93c 23:915,93c 916,93c 917,93c 91c,93c 921,93c 922,93c 92b,93c 92f,93c",
  "6b:9c7,9be 9c7,9d7 f:9a1,9bc 9a2,9bc 1:9af,9bc 53:a32,a3c 2:a38,a3c 22:a16,a3c a17,a3c a1c,a3c",
  "2:a2b,a3c e9:b47,b56 2:b47,b3e b47,b57 f:b21,b3c b22,b3c 36:b92,bd7 35:bc6,bbe bc7,bbe bc6,bd7",
  "7b:c46,c56 77:cbf,cd5 6:cc6,cd5 cc6,cd6 1:cc6,cc2 cc6,cc2,cd5 7e:d46,d3e d47,d3e d46,d57",
  "8d:dd9,dca 1:dd9,dcf dd9,dcf,dca dd9,ddf 54:e4d,e32 7f:ecd,eb2 28:eab,e99 eab,ea1 65:f42,fb7",
  "9:f4c,fb7 4:f51,fb7 4:f56,fb7 4:f5b,fb7 c:f40,fb5 9:f71,f72 1:f71,f74 fb2,f80 fb2,f71,f80",
  "fb3,f80 fb3,f71,f80 7:f71,f80 11:f92,fb7 9:f9c,fb7 4:fa1,fb7 4:fa6,fb7 4:fab,fb7 c:f90,fb5",
  "6c:1025,102e d5:10dc a09:1b05,1b35 1:1b07,1b35 1:1b09,1b35 1:1b0b,1b35 1:1b0d,1b35 3:1b11,1b35",
  "28:1b3a,1b35 1:1b3c,1b35 2:1b3e,1b35 1b3f,1b35 1:1b42,1b35 1e8:41 c6 42 1*2:44 18e *8:47 1:4f",
  "222 50 52 *2:54 57 61 *2:250 1d02 62 *2:64 259 *2:25b 67 1:6b 6d 14b 6f 254 *2:1d16 70 *2:74",
  "1d1d 26f 76 1d25 *3:3b2 *2:3c6 69 72 *2:75 *2:3b2 3c1 *2:3c6 d:43d 22:252 63 255 f0 25c 66 25f",
  "261 265 *3:268 1d7b 29d 26d 1d85 29f 271 270 *4:272 278 *2:282 1ab *2:289 1d1c *2:28b 7a *3:290",
  "3b8 40:41,325 61,325 42,307 62,307 42,323 62,323 42,331 62,331 43,327,301 63,327,301 44,307",
  "64,307 44,323 64,323 44,331 64,331 44,327 64,327 44,32d 64,32d 45,304,300 65,304,300 45,304,301",
  "65,304,301 45,32d 65,32d 45,330 65,330 45,327,306 65,327,306 46,307 66,307 47,304 67,304 48,307",
  "68,307 48,323 68,323 48,308 68,308 48,327 68,327 48,32e 68,32e 49,330 69,330 49,308,301",
  "69,308,301 4b,301 6b,301 4b,323 6b,323 4b,331 6b,331 4c,323 6c,323 4c,323,304 6c,323,304 4c,331",
  "6c,331 4c,32d 6c,32d 4d,301 6d,301 4d,307 6d,307 4d,323 6d,323 4e,307 6e,307 4e,323 6e,323",
  "4e,331 6e,331 4e,32d 6e,32d 4f,303,301 6f,303,301 4f,303,308 6f,303,308 4f,304,300 6f,304,300",
  "4f,304,301 6f,304,301 50,301 70,301 50,307 70,307 52,307 72,307 52,323 72,323 52,323,304",
  "72,323,304 52,331 72,331 53,307 73,307 53,323 73,323 53,301,307 73,301,307 53,30c,307",
  "73,30c,307 53,323,307 73,323,307 54,307 74,307 54,323 74,323 54,331 74,331 54,32d 74,32d 55,324",
  "75,324 55,330 75,330 55,32d 75,32d 55,303,301 75,303,301 55,304,308 75,304,308 56,303 76,303",
  "56,323 76,323 57,300 77,300 57,301 77,301 57,308 77,308 57,307 77,307 57,323 77,323 58,307",
  "78,307 58,308 78,308 59,307 79,307 5a,302 7a,302 5a,323 7a,323 5a,331 7a,331 68,331 74,308",
  "77,30a 79,30a 61,2be 73,307 4:41,323 61,323 41,309 61,309 41,302,301 61,302,301 41,302,300",
  "61,302,300 41,302,309 61,302,309 41,302,303 61,302,303 41,323,302 61,323,302 41,306,301",
  "61,306,301 41,306,300 61,306,300 41,306,309 61,306,309 41,306,303 61,306,303 41,323,306",
  "61,323,306 45,323 65,323 45,309 65,309 45,303 65,303 45,302,301 65,302,301 45,302,300",
  "65,302,300 45,302,309 65,302,309 45,302,303 65,302,303 45,323,302 65,323,302 49,309 69,309",
  "49,323 69,323 4f,323 6f,323 4f,309 6f,309 4f,302,301 6f,302,301 4f,302,300 6f,302,300",
  "4f,302,309 6f,302,309 4f,302,303 6f,302,303 4f,323,302 6f,323,302 4f,31b,301 6f,31b,301",
  "4f,31b,300 6f,31b,300 4f,31b,309 6f,31b,309 4f,31b,303 6f,31b,303 4f,31b,323 6f,31b,323 55,323",
  "75,323 55,309 75,309 55,31b,301 75,31b,301 55,31b,300 75,31b,300 55,31b,309 75,31b,309",
  "55,31b,303 75,31b,303 55,31b,323 75,31b,323 59,300 79,300 59,323 79,323 59,309 79,309 59,303",
  "79,303 6:3b1,313 3b1,314 3b1,313,300 3b1,314,300 3b1,313,301 3b1,314,301 3b1,313,342",
  "3b1,314,342 391,313 391,314 391,313,300 391,314,300 391,313,301 391,314,301 391,313,342",
  "391,314,342 3b5,313 3b5,314 3b5,313,300 3b5,314,300 3b5,313,301 3b5,314,301 2:395,313 395,314",
  "395,313,300 395,314,300 395,313,301 395,314,301 2:3b7,313 3b7,314 3b7,313,300 3b7,314,300",
  "3b7,313,301 3b7,314,301 3b7,313,342 3b7,314,342 397,313 397,314 397,313,300 397,314,300",
  "397,313,301 397,314,301 397,313,342 397,314,342 3b9,313 3b9,314 3b9,313,300 3b9,314,300",
  "3b9,313,301 3b9,314,301 3b9,313,342 3b9,314,342 399,313 399,314 399,313,300 399,314,300",
  "399,313,301 399,314,301 399,313,342 399,314,342 3bf,313 3bf,314 3bf,313,300 3bf,314,300",
  "3bf,313,301 3bf,314,301 2:39f,313 39f,314 39f,313,300 39f,314,300 39f,313,301 39f,314,301",
  "2:3c5,313 3c5,314 3c5,313,300 3c5,314,300 3c5,313,301 3c5,314,301 3c5,313,342 3c5,314,342",
  "1:3a5,314 1:3a5,314,300 1:3a5,314,301 1:3a5,314,342 3c9,313 3c9,314 3c9,313,300 3c9,314,300",
  "3c9,313,301 3c9,314,301 3c9,313,342 3c9,314,342 3a9,313 3a9,314 3a9,313,300 3a9,314,300",
  "3a9,313,301 3a9,314,301 3a9,313,342 3a9,314,342 3b1,300 3b1,301 3b5,300 3b5,301 3b7,300 3b7,301",
  "3b9,300 3b9,301 3bf,300 3bf,301 3c5,300 3c5,301 3c9,300 3c9,301 2:3b1,313,345 3b1,314,345",
  "3b1,313,300,345 3b1,314,300,345 3b1,313,301,345 3b1,314,301,345 3b1,313,342,345 3b1,314,342,345",
  "391,313,345 391,314,345 391,313,300,345 391,314,300,345 391,313,301,345 391,314,301,345",
  "391,313,342,345 391,314,342,345 3b7,313,345 3b7,314,345 3b7,313,300,345 3b7,314,300,345",
  "3b7,313,301,345 3b7,314,301,345 3b7,313,342,345 3b7,314,342,345 397,313,345 397,314,345",
  "397,313,300,345 397,314,300,345 397,313,301,345 397,314,301,345 397,313,342,345 397,314,342,345",
  "3c9,313,345 3c9,314,345 3c9,313,300,345 3c9,314,300,345 3c9,313,301,345 3c9,314,301,345",
  "3c9,313,342,345 3c9,314,342,345 3a9,313,345 3a9,314,345 3a9,313,300,345 3a9,314,300,345",
  "3a9,313,301,345 3a9,314,301,345 3a9,313,342,345 3a9,314,342,345 3b1,306 3b1,304 3b1,300,345",
  "3b1,345 3b1,301,345 1:3b1,342 3b1,342,345 391,306 391,304 391,300 391,301 391,345 1:3b9",
  "3:3b7,300,345 3b7,345 3b7,301,345 1:3b7,342 3b7,342,345 395,300 395,301 397,300 397,301 397,345",
  "3:3b9,306 3b9,304 3b9,308,300 3b9,308,301 2:3b9,342 3b9,308,342 399,306 399,304 399,300 399,301",
  "4:3c5,306 3c5,304 3c5,308,300 3c5,308,301 3c1,313 3c1,314 3c5,342 3c5,308,342 3a5,306 3a5,304",
  "3a5,300 3a5,301 3a1,314 5:3c9,300,345 3c9,345 3c9,301,345 1:3c9,342 3c9,342,345 39f,300 39f,301",
  "3a9,300 3a9,301 3a9,345 74:69 d:6e 10:61 65 6f 78 259 68 *4:6b 70 *2:73 65:43 4:190 2:67 48 48",
  "48 68 127 49 49 4c 6c 1:4e 3*3:50 52 52 6:5a 1:3a9 1:5a 1:4b 41,30a *2:42 1:65 *2:45 1:4d 6f",
  "*4:5d0 69 2:3c0 3b3 393 3a0 5:44 *2:64 *2:69 16:49 49,49 49,49,49 49,56 56 56,49 56,49,49",
  "56,49,49,49 49,58 58 58,49 58,49,49 4c *2:43 4d 69 69,69 69,69,69 69,76 76 76,69 76,69,69",
  "76,69,69,69 69,78 78 78,69 78,69,69 6c *2:63 6d afc:6a 56 f1:2d61 2c8:5341 *2:5344 11:304b,3099",
  "1:304d,3099 1:304f,3099 1:3051,3099 1:3053,3099 1:3055,3099 1:3057,3099 1:3059,3099 1:305b,3099",
  "1:305d,3099 1:305f,3099 1:3061,3099 2:3064,3099 1:3066,3099 1:3068,3099 6:306f,3099 306f,309a",
  "1:3072,3099 3072,309a 1:3075,3099 3075,309a 1:3078,3099 3078,309a 1:307b,3099 307b,309a",
  "16:3046,3099 9:309d,3099 3088,308a c:30ab,3099 1:30ad,3099 1:30af,3099 1:30b1,3099 1:30b3,3099",
  "1:30b5,3099 1:30b7,3099 1:30b9,3099 1:30bb,3099 1:30bd,3099 1:30bf,3099 1:30c1,3099 2:30c4,3099",
  "1:30c6,3099 1:30c8,3099 6:30cf,3099 30cf,309a 1:30d2,3099 30d2,309a 1:30d5,3099 30d5,309a",
  "1:30d8,3099 30d8,309a 1:30db,3099 30db,309a 16:30a6,3099 2:30ef,3099 30f0,3099 30f1,3099",
  "30f2,3099 3:30fd,3099 30b3,30c8 31*2:1100 11aa 1102 *2:11ac *3:1103 *6:11b0 111a *3:1106 1121",
  "*a:1109 *15:1161 1160 *2:1114 *2:11c7 11cc 11ce 11d3 11d7 11d9 111c 11dd 11df *2:111d 1120",
  "*2:1122 1127 1129 *5:112b 1132 1136 1140 1147 114c *2:11f1 *3:1157 *2:1184 1188 *2:1191 1194",
  "119e 11a1 750d:44a 44c d2:a76f 81:43 46 51 3:126 153 362:a727 ab37 26b ab52 9:28d 4d96:8c48",
  "66f4 8eca 8cc8 6ed1 4e32 53e5 9f9c 9f9c 5951 91d1 5587 5948 61f6 7669 7f85 863f 87ba 88f8 908f",
  "6a02 6d1b 70d9 73de 843d 916a 99f1 4e82 5375 6b04 721b 862d 9e1e 5d50 6feb 85cd 8964 62c9 81d8",
  "881f 5eca 6717 6d6a 72fc 90ce 4f86 51b7 52de 64c4 6ad3 7210 76e7 8001 8606 865c 8def 9732 9b6f",
  "9dfa 788c 797f 7da0 83c9 9304 9e7f 8ad6 58df 5f04 7c60 807e 7262 78ca 8cc2 96f7 58d8 5c62 6a13",
  "6dda 6f0f 7d2f 7e37 964b 52d2 808b 51dc 51cc 7a1c 7dbe 83f1 9675 8b80 62cf 6a02 8afe 4e39 5be7",
  "6012 7387 7570 5317 78fb 4fbf 5fa9 4e0d 6ccc 6578 7d22 53c3 585e 7701 8449 8aaa 6bba 8fb0 6c88",
  "62fe 82e5 63a0 7565 4eae 5169 51c9 6881 7ce7 826f 8ad2 91cf 52f5 5442 5973 5eec 65c5 6ffe 792a",
  "95ad 9a6a 9e97 9ece 529b 66c6 6b77 8f62 5e74 6190 6200 649a 6f23 7149 7489 79ca 7df4 806f 8f26",
  "84ee 9023 934a 5217 52a3 54bd 70c8 88c2 8aaa 5ec9 5ff5 637b 6bae 7c3e 7375 4ee4 56f9 5be7 5dba",
  "601c 73b2 7469 7f9a 8046 9234 96f6 9748 9818 4f8b 79ae 91b4 96b8 60e1 4e86 50da 5bee 5c3f 6599",
  "6a02 71ce 7642 84fc 907c 9f8d 6688 962e 5289 677b 67f3 6d41 6e9c 7409 7559 786b 7d10 985e 516d",
  "622e 9678 502b 5d19 6dea 8f2a 5f8b 6144 6817 7387 9686 5229 540f 5c65 6613 674e 68a8 6ce5 7406",
  "75e2 7f79 88cf 88e1 91cc 96e2 533f 6eba 541d 71d0 7498 85fa 96a3 9c57 9e9f 6797 6dcb 81e8 7acb",
  "7b20 7c92 72c0 7099 8b58 4ec0 8336 523a 5207 5ea6 62d3 7cd6 5b85 6d1e 66b4 8f3b 884c 964d 898b",
  "5ed3 5140 55c0 2:585a 1:6674 2:51de 732a 76ca 793c 795e 7965 798f 9756 7cbe 7fbd 1:8612 1:8af8",
  "2:9038 90fd 3:98ef 98fc 9928 9db4 90de 96b7 4fae 50e7 514d 52c9 52e4 5351 559d 5606 5668 5840",
  "58a8 5c64 5c6e 6094 6168 618e 61f2 654f 65e2 6691 6885 6d77 6e1a 6f22 716e 722b 7422 7891 793e",
  "7949 7948 7950 7956 795d *2:798d 7a40 7a81 7bc0 7df4 7e09 7e41 7f72 8005 81ed 8279 8279 8457",
  "8910 8996 8b01 8b39 8cd3 8d08 8fb6 9038 96e3 97ff 983b 6075 242ee 8218 2:4e26 51b5 5168 4f80",
  "5145 5180 52c7 52fa 559d 5555 5599 55e2 585a 58b3 5944 5954 5a62 5b28 5ed2 5ed9 5f69 5fad 60d8",
  "614e 6108 618e 6160 61f2 6234 63c4 641c 6452 6556 6674 6717 671b 6756 6b79 6bba 6d41 6edb 6ecb",
  "6f22 701e 716e 77a7 7235 72af 732a 7471 7506 753b 761d 761f 76ca 76db 76f4 774a 7740 78cc 7ab1",
  "7bc0 7c7b 7d5b 7df4 7f3e 8005 8352 83ef 8779 8941 8986 8996 8abf 8af8 8acb 8b01 8afe 8aed 8b39",
  "8b8a 8d08 8f38 9072 9199 9276 967c 96e3 9756 97db 97ff 980b 983b 9b12 9f9c 2284a 22844 233d5",
  "3b9d 4018 4039 25249 25cd0 27ed3 9f43 9f8e 26:66,66 66,69 66,6c 66,66,69 66,66,6c 73,74 73,74",
  "c:574,576 574,565 574,56b 57e,576 574,56d 5:5d9,5b4 1:5f2,5b7 5e2 5d0 *2:5d3 *3:5db 5e8 5ea",
  "1:5e9,5c1 5e9,5c2 5e9,5bc,5c1 5e9,5bc,5c2 5d0,5b7 5d0,5b8 5d0,5bc 5d1,5bc 5d2,5bc 5d3,5bc",
  "5d4,5bc 5d5,5bc 5d6,5bc 1:5d8,5bc 5d9,5bc 5da,5bc 5db,5bc 5dc,5bc 1:5de,5bc 1:5e0,5bc 5e1,5bc",
  "1:5e3,5bc 5e4,5bc 1:5e6,5bc 5e7,5bc 5e8,5bc 5e9,5bc 5ea,5bc 5d5,5b9 5d1,5bf 5db,5bf 5e4,5bf",
  "5d0,5dc 671 671 67b 67b 67b 67b 67e 67e 67e 67e 680 680 680 680 67a 67a 67a 67a 67f 67f 67f 67f",
  "679 679 679 679 6a4 6a4 6a4 6a4 6a6 6a6 6a6 6a6 684 684 684 684 683 683 683 683 686 686 686",
  "*2:686 687 687 687 68d 68d 68c 68c 68e 68e 688 688 698 698 691 691 6a9 6a9 6a9 6a9 6af 6af 6af",
  "6af 6b3 6b3 6b3 6b3 6b1 6b1 6b1 6b1 6ba *2:6ba 6bb 6bb 6bb 6d5,654 6d5,654 6c1 6c1 6c1 6c1 6be",
  "6be 6be 6be 6d2 6d2 6d2,654 6d2,654 21:6ad 6ad 6ad 6ad 6c7 6c7 6c6 6c6 6c8 6c8 6c7,674 6cb 6cb",
  "6c5 6c5 6c9 6c9 6d0 6d0 6d0 6d0 649 649 64a,654,627 64a,654,627 64a,654,6d5 64a,654,6d5",
  "64a,654,648 64a,654,648 64a,654,6c7 64a,654,6c7 64a,654,6c6 64a,654,6c6 64a,654,6c8 64a,654,6c8",
  "64a,654,6d0 64a,654,6d0 64a,654,6d0 64a,654,649 64a,654,649 64a,654,649 6cc 6cc 6cc 6cc",
  "64a,654,62c 64a,654,62d 64a,654,645 64a,654,649 64a,654,64a 628,62c 628,62d 628,62e 628,645",
  "628,649 628,64a 62a,62c 62a,62d 62a,62e 62a,645 62a,649 62a,64a 62b,62c 62b,645 62b,649 62b,64a",
  "62c,62d 62c,645 62d,62c 62d,645 62e,62c 62e,62d 62e,645 633,62c 633,62d 633,62e 633,645 635,62d",
  "635,645 636,62c 636,62d 636,62e 636,645 637,62d 637,645 638,645 639,62c 639,645 63a,62c 63a,645",
  "641,62c 641,62d 641,62e 641,645 641,649 641,64a 642,62d 642,645 642,649 642,64a 643,627 643,62c",
  "643,62d 643,62e 643,644 643,645 643,649 643,64a 644,62c 644,62d 644,62e 644,645 644,649 644,64a",
  "645,62c 645,62d 645,62e 645,645 645,649 645,64a 646,62c 646,62d 646,62e 646,645 646,649 646,64a",
  "647,62c 647,645 647,649 647,64a 64a,62c 64a,62d 64a,62e 64a,645 64a,649 64a,64a 630,670 631,670",
  "649,670 6:64a,654,631 64a,654,632 64a,654,645 64a,654,646 64a,654,649 64a,654,64a 628,631",
  "628,632 628,645 628,646 628,649 628,64a 62a,631 62a,632 62a,645 62a,646 62a,649 62a,64a 62b,631",
  "62b,632 62b,645 62b,646 62b,649 62b,64a 641,649 641,64a 642,649 642,64a 643,627 643,644 643,645",
  "643,649 643,64a 644,645 644,649 644,64a 645,627 645,645 646,631 646,632 646,645 646,646 646,649",
  "646,64a 649,670 64a,631 64a,632 64a,645 64a,646 64a,649 64a,64a 64a,654,62c 64a,654,62d",
  "64a,654,62e 64a,654,645 64a,654,647 628,62c 628,62d 628,62e 628,645 628,647 62a,62c 62a,62d",
  "62a,62e 62a,645 62a,647 62b,645 62c,62d 62c,645 62d,62c 62d,645 62e,62c 62e,645 633,62c 633,62d",
  "633,62e 633,645 635,62d 635,62e 635,645 636,62c 636,62d 636,62e 636,645 637,62d 638,645 639,62c",
  "639,645 63a,62c 63a,645 641,62c 641,62d 641,62e 641,645 642,62d 642,645 643,62c 643,62d 643,62e",
  "643,644 643,645 644,62c 644,62d 644,62e 644,645 644,647 645,62c 645,62d 645,62e 645,645 646,62c",
  "646,62d 646,62e 646,645 646,647 647,62c 647,645 647,670 64a,62c 64a,62d 64a,62e 64a,645 64a,647",
  "64a,654,645 64a,654,647 628,645 628,647 62a,645 62a,647 62b,645 62b,647 633,645 633,647 634,645",
  "634,647 643,644 643,645 644,645 646,645 646,647 64a,645 64a,647 640,64e,651 640,64f,651",
  "640,650,651 637,649 637,64a 639,649 639,64a 63a,649 63a,64a 633,649 633,64a 634,649 634,64a",
  "62d,649 62d,64a 62c,649 62c,64a 62e,649 62e,64a 635,649 635,64a 636,649 636,64a 634,62c 634,62d",
  "634,62e 634,645 634,631 633,631 635,631 636,631 637,649 637,64a 639,649 639,64a 63a,649 63a,64a",
  "633,649 633,64a 634,649 634,64a 62d,649 62d,64a 62c,649 62c,64a 62e,649 62e,64a 635,649 635,64a",
  "636,649 636,64a 634,62c 634,62d 634,62e 634,645 634,631 633,631 635,631 636,631 634,62c 634,62d",
  "634,62e 634,645 633,647 634,647 637,645 633,62c 633,62d 633,62e 634,62c 634,62d 634,62e 637,645",
  "638,645 627,64b 627,64b 12:62a,62c,645 62a,62d,62c 62a,62d,62c 62a,62d,645 62a,62e,645",
  "62a,645,62c 62a,645,62d 62a,645,62e 62c,645,62d 62c,645,62d 62d,645,64a 62d,645,649 633,62d,62c",
  "633,62c,62d 633,62c,649 633,645,62d 633,645,62d 633,645,62c 633,645,645 633,645,645 635,62d,62d",
  "635,62d,62d 635,645,645 634,62d,645 634,62d,645 634,62c,64a 634,645,62e 634,645,62e 634,645,645",
  "634,645,645 636,62d,649 636,62e,645 636,62e,645 637,645,62d 637,645,62d 637,645,645 637,645,64a",
  "639,62c,645 639,645,645 639,645,645 639,645,649 63a,645,645 63a,645,64a 63a,645,649 641,62e,645",
  "641,62e,645 642,645,62d 642,645,645 644,62d,645 644,62d,64a 644,62d,649 644,62c,62c 644,62c,62c",
  "644,62e,645 644,62e,645 644,645,62d 644,645,62d 645,62d,62c 645,62d,645 645,62d,64a 645,62c,62d",
  "645,62c,645 645,62e,62c 645,62e,645 2:645,62c,62e 647,645,62c 647,645,645 646,62d,645",
  "646,62d,649 646,62c,645 646,62c,645 646,62c,649 646,645,64a 646,645,649 64a,645,645 64a,645,645",
  "628,62e,64a 62a,62c,64a 62a,62c,649 62a,62e,64a 62a,62e,649 62a,645,64a 62a,645,649 62c,645,64a",
  "62c,62d,649 62c,645,649 633,62e,649 635,62d,64a 634,62d,64a 636,62d,64a 644,62c,64a 644,645,64a",
  "64a,62d,64a 64a,62c,64a 64a,645,64a 645,645,64a 642,645,64a 646,62d,64a 642,645,62d 644,62d,645",
  "639,645,64a 643,645,64a 646,62c,62d 645,62e,64a 644,62c,645 643,645,645 644,62c,645 646,62c,62d",
  "62c,62d,64a 62d,62c,64a 645,62c,64a 641,645,64a 628,62d,64a 643,645,645 639,62c,645 635,645,645",
  "633,62e,64a 646,62c,64a 28:635,644,6d2 642,644,6d2 627,644,644,647 627,643,628,631",
  "645,62d,645,62f 635,644,639,645 631,633,648,644 639,644,64a,647 648,633,644,645 635,644,649",
  "39:5f 5f 18:5f 5f 5f 21:640,64b 5:640,64e 1:640,64f 1:640,650 1:640,651 1:640,652 621 627,653",
  "627,653 627,654 627,654 648,654 648,654 627,655 627,655 64a,654 64a,654 64a,654 64a,654 627",
  "*2:627 628 628 *2:628 *2:629 62a 62a *2:62a 62b 62b *2:62b 62c 62c *2:62c 62d 62d *2:62d 62e",
  "62e *2:62e *2:62f *2:630 *2:631 *2:632 633 633 *2:633 634 634 *2:634 635 635 *2:635 636 636",
  "*2:636 637 637 *2:637 638 638 *2:638 639 639 *2:639 63a 63a 63a 641 641 641 *2:641 642 642",
  "*2:642 643 643 *2:643 644 644 *2:644 645 645 *2:645 646 646 *2:646 647 647 *2:647 *2:648 *2:649",
  "64a 64a 64a 644,627,653 644,627,653 644,627,654 644,627,654 644,627,655 644,627,655 644,627",
  "644,627 13*a:30 7*1a:41 4:5f 1*1a:61 b:30f2 30a1 30a3 30a5 30a7 30a9 30e3 30e5 30e7 30c3 30fc",
  "30a2 30a4 30a6 30a8 *2:30aa 30ad 30af 30b1 30b3 30b5 30b7 30b9 30bb 30bd 30bf 30c1 30c4 30c6",
  "30c8 *6:30ca 30d2 30d5 30d8 30db *5:30de 30e4 30e6 *6:30e8 30ef 30f3 *2:3099 1160 *2:1100 11aa",
  "1102 *2:11ac *3:1103 *6:11b0 111a *3:1106 1121 *a:1109 3*6:1161 2*6:1167 2*6:116d 2*3:1173",
  "7a4*2:2d0 e6 299 253 1:2a3 ab66 2a5 2a4 *2:256 1d91 258 25e 2a9 264 262 260 29b 127 29c 267 284",
  "*2:2aa 26c 1df04 a78e 26e 1df05 28e 1df06 f8 *2:276 71 27a 1df08 *2:27d 280 2a8 2a6 ab67 2a7",
  "288 2c71 1:28f *2:2a1 298 *3:1c0 1df0a 1df1e 8df:11099,110ba 1:1109b,110ba e:110a5,110ba",
  "82:11131,11127 11132,11127 21b:11347,1133e 11347,11357 16e:114b9,114ba 114b9,114b0",
  "1:114b9,114bd fb:115b8,115af 115b9,115af 37c:11935,11930 bac7*1a:41 *1a:61 *1a:41 *7:61 1*12:69",
  "*1a:41 *1a:61 41 1*2:43 2:47 2*2:4a 2*4:4e 1*8:53 *4:61 1:66 1*7:68 1*b:70 *1a:41 *1a:61 *2:41",
  "1*4:44 2*8:4a 1*7:53 1*1a:61 *2:41 1*4:44 1*5:49 1:4f 3*7:53 1*1a:61 *1a:41 *1a:61 *1a:41",
  "*1a:61 *1a:41 *1a:61 *1a:41 *1a:61 *1a:41 *1a:61 *1a:41 *1a:61 131 237 2*11:391 398 *7:3a3",
  "1*19:3b1 1:3b5 3b8 3ba 3c6 3c1 3c0 *11:391 398 *7:3a3 1*19:3b1 1:3b5 3b8 3ba 3c6 3c1 3c0",
  "*11:391 398 *7:3a3 1*19:3b1 1:3b5 3b8 3ba 3c6 3c1 3c0 *11:391 398 *7:3a3 1*19:3b1 1:3b5 3b8 3ba",
  "3c6 3c1 3c0 *11:391 398 *7:3a3 1*19:3b1 1:3b5 3b8 3ba 3c6 3c1 3c0 *2:3dc 2*a:30 *a:30 *a:30",
  "*a:30 *a:30 1600*2:627 62c 62f 1:648 632 62d 637 64a *4:643 633 639 641 635 642 631 634 *2:62a",
  "62e 630 636 638 63a 66e 6ba 6a1 66f 1:628 62c 1:647 2:62d 1:64a *4:643 633 639 641 635 642",
  "1:634 *2:62a 62e 1:636 1:63a 6:62c 4:62d 1:64a 1:644 1:646 633 639 1:635 642 1:634 2:62e 1:636",
  "1:63a 1:6ba 1:66f 1:628 62c 1:647 2:62d 637 64a 643 1*2:645 633 639 641 635 642 1:634 *2:62a",
  "62e 1:636 638 63a 66e 1:6a1 1*2:627 62c 62f *2:647 632 62d 637 64a 1*3:644 633 639 641 635 642",
  "631 634 *2:62a 62e 630 636 638 63a 5:628 62c 62f 1:648 632 62d 637 64a 1*3:644 633 639 641 635",
  "642 631 634 *2:62a 62e 630 636 638 63a d34*a:30 fc06:4e3d 4e38 4e41 20122 4f60 4fae 4fbb 5002",
  "507a 5099 50e7 50cf 349e 2063a 514d 5154 5164 5177 2051c 34b9 5167 518d 2054b 5197 51a4 4ecc",
  "51ac 51b5 291df 51f5 5203 34df 523b 5246 5272 5277 3515 52c7 52c9 52e4 52fa *2:5305 5317 5349",
  "5351 535a 5373 537d 537f 537f 537f 20a2c 7070 53ca 53df 20b63 53eb 53f1 5406 549e 5438 5448",
  "5468 54a2 54f6 5510 5553 5563 5584 5584 5599 55ab 55b3 55c2 5716 5606 5717 5651 5674 5207 58ee",
  "57ce 57f4 580d 578b 5832 5831 58ac 214e4 58f2 58f7 5906 591a 5922 5962 216a8 216ea 59ec 5a1b",
  "5a27 59d8 5a66 36ee 36fc 5b08 5b3e 5b3e 219c8 5bc3 5bd8 5be7 5bf3 21b18 5bff 5c06 5f53 5c22",
  "3781 5c60 5c6e 5cc0 5c8d 21de4 5d43 21de6 5d6e 5d6b 5d7c *2:5de1 382f 5dfd 5e28 5e3d 5e69 3862",
  "22183 387c 5eb0 5eb3 5eb6 5eca 2a392 5efe 22331 22331 8201 5f22 5f22 38c7 232b8 261da 5f62 5f6b",
  "38e3 5f9a 5fcd 5fd7 5ff9 6081 393a 391c 6094 226d4 60c7 6148 614c 614e 614c 617a 618e 61b2 61a4",
  "61af 61de 61f2 61f6 6210 621b 625d 62b1 62d4 6350 22b0c 633d 62fc 6368 6383 63e4 22bf1 6422",
  "63c5 63a9 3a2e 6469 647e 649d 6477 3a6c 654f 656c 2300a 65e3 66f8 6649 3b19 6691 3b08 3ae4 5192",
  "5195 6700 669c 80ad 43d9 6717 671b 6721 675e 6753 233c3 3b49 67fa 6785 6852 6885 2346d 688e",
  "681f 6914 3b9d 6942 69a3 69ea 6aa8 236a3 6adb 3c18 6b21 238a7 6b54 3c4e 6b72 6b9f *2:6bba 23a8d",
  "21d0b 23afa 6c4e 23cbc 6cbf 6ccd 6c67 6d16 6d3e 6d77 6d41 6d69 6d78 6d85 23d1e 6d34 6e2f 6e6e",
  "3d33 6ecb 6ec7 23ed1 6df9 6f6e 23f5e 23f8e 6fc6 7039 701e 701b 3d96 704a 707d 7077 70ad 20525",
  "7145 24263 719c 243ab 7228 7235 7250 24608 7280 7295 24735 24814 737a 738b 3eac 73a5 3eb8 3eb8",
  "7447 745c 7471 7485 74ca 3f1b 7524 24c36 753e 24c92 7570 2219f 7610 24fa1 24fb8 25044 3ffc 4008",
  "76f4 250f3 250f2 25119 25133 *2:771e 771f 774a 4039 778b 4046 4096 2541d 784e 788c 78cc 40e3",
  "25626 7956 2569a 256c5 798f 79eb 412f 7a40 7a4a 7a4f 2597c 25aa7 25aa7 7aee 4202 25bab 7bc6",
  "7bc9 4227 25c80 7cd2 42a0 7ce8 7ce3 7d00 25f86 7d63 4301 7dc7 7e02 7e45 4334 26228 26247 4359",
  "262d9 7f7a 2633e 7f95 7ffa 8005 264da 26523 8060 265a8 8070 2335f 43d5 80b2 8103 440b 813e 5ab5",
  "267a7 267b5 23393 2339c 8201 8204 8f9e 446b 8291 828b 829d 52b3 82b1 82b3 82bd 82e6 26b3c 82e5",
  "831d 8363 83ad 8323 83bd 83e7 8457 8353 83ca 83cc 83dc 26c36 26d6b 26cd5 452b 84f1 84f3 8516",
  "273ca 8564 26f2c 455d 4561 26fb1 270d2 456b 8650 865c 8667 8669 86a9 8688 870e 86e2 8779 8728",
  "876b 8786 45d7 87e1 8801 45f9 8860 8863 27667 88d7 88de 4635 88fa 34bb 278ae 27966 46be 46c7",
  "8aa0 8aed 8b8a 8c55 27ca8 8cab 8cc1 8d1b 8d77 27f2f 20804 8dcb 8dbc 8df0 208de 8ed4 8f38 285d2",
  "285ed 9094 90f1 9111 2872e 911b 9238 *2:92d7 927c 93f9 9415 28bfa 958b 4995 95b7 28d77 49e6",
  "96c3 5db2 9723 29145 2921a 4a6e 4a76 97e0 2940a 4ab2 29496 980b 980b 9829 295b6 98e2 4b33 9929",
  "99a7 99c2 99fe 4bce 29b30 9b12 9c40 9cfd 4cce 4ced 9d67 2a0ce 4cf8 2a105 2a20e 2a291 9ebb 4d56",
  "9ef9 9efe 9f05 9f0f 9f16 9f3b 2a600"])

/-- Canonical combining classes other than zero. -/
def combiningClasses : List MappedRun := mappedRuns 0 (words [
  "300*15:e6 e8 *4:dc e8 d8 *5:dc *2:ca *4:dc *2:ca *b:dc *5:1 *4:dc *8:e6 f0 e6 *3:dc *3:e6 *2:dc",
  "1*3:e6 *4:dc e6 e8 *2:dc e6 e9 *2:ea e9 *2:ea e9 *d:e6 113*5:e6 109:dc *4:e6 dc *3:e6 de dc",
  "*6:e6 *6:dc *2:e6 dc *2:e6 de e4 e6 a b c d e f 10 11 12 *2:13 14 15 16 1:17 1:18 19 1:e6 dc",
  "1:12 48*8:e6 1e 1f 20 30:1b 1c 1d 1e 1f 20 21 22 *2:e6 *2:dc *5:e6 dc *2:e6 dc 10:23 65*7:e6",
  "2*4:e6 dc e6 2*2:e6 1:dc *2:e6 dc 23:24 1e:e6 dc *2:e6 dc *2:e6 *3:dc e6 *2:dc e6 dc *3:e6 dc",
  "e6 dc e6 dc e6 dc *2:e6 a0*7:e6 dc e6 9:dc 18*4:e6 1*9:e6 1*3:e6 1*5:e6 2b*3:dc 3c:e6 *3:dc",
  "*4:e6 2a*5:e6 *5:dc *e:e6 1:dc *2:e6 dc *2:e6 dc *3:e6 *3:dc 1b 1c 1d *3:e6 dc *2:e6 *2:dc",
  "*5:e6 3c:7 10:9 3:e6 dc *2:e6 67:7 10:9 30:e6 3d:7 10:9 6e:7 10:9 6e:7 10:9 7f:9 6e:7 10:9 7:54",
  "5b 65:7 10:9 6d*2:9 10:9 7c:9 6d*2:67 9 d*4:6b 6c*2:76 9 d*4:7a 4c*2:dc 1b:dc 1:dc 1:d8 37:81",
  "82 1:84 5*4:82 2:82 1*2:e6 9 1*2:e6 3e:dc 70:7 1*2:9 52:dc 2cf*3:e6 3b4*2:9 1e:9 9d:9 a:e6",
  "cb:e4 8f:de e6 dc db:e6 dc 47:9 14*8:e6 2:dc 30*5:e6 *6:dc *2:e6 dc 1*2:dc *2:e6 *2:dc *5:e6 dc",
  "*4:e6 65:7 f:9 26:e6 dc *7:e6 36*2:9 3a:7 b*2:9 43:7 98*3:e6 1:1 *5:dc *2:e6 *4:dc e6 1*7:1",
  "4:dc 6:e6 3*2:e6 c6*2:e6 dc *7:e6 dc *2:e6 ea d6 dc ca *25:e6 e8 *2:e4 dc da e6 e9 dc e6 dc",
  "2d0*2:e6 *2:1 *4:e6 *3:1 *2:e6 4:e6 3*2:1 e6 dc e6 *2:1 *4:dc e6 bfe*3:e6 8d:9 60*20:e6 22a:da",
  "e4 e8 de *2:e0 69*2:8 75d4:e6 4*a:e6 20*2:e6 50*2:e6 114:9 25:9 97:9 1b*12:e6 39*3:dc 25:9 5f:7",
  "c:9 ef:e6 1*2:e6 dc 2*2:e6 5*2:e6 1:e6 34:9 f6:9 4f30:1a 301*7:e6 *7:dc *2:e6 3cd:dc e2:dc",
  "95*5:e6 692:dc 1:e6 28:e6 1 dc 4:9 a5:e6 dc 23d*4:e6 183*2:e6 99*2:dc *3:e6 dc e6 *4:dc 31:e6",
  "dc e6 dc c0:9 29:9 e:9 39:9 7 45*3:e6 30*2:9 3e:7 4c:9 9:7 6a:9 7 b2:7 9 50*2:7 10:9 18*7:e6",
  "3*5:e6 cd:9 3:7 17:e6 63:9 7 fb:9 7 7e:9 76:9 7 73:9 10d:9 7 102*2:9 4:7 9c:9 53:9 12:9 51:9",
  "1a5:9 102:7 1*2:9 51:9 4d58*5:1 3b*7:e6 4b9*2:6 4cac:1 14c6*2:d8 *3:1 3:e2 *5:d8 8*8:dc 2*5:e6",
  "*2:dc 1e*4:e6 94*3:e6 dbb*7:e6 1*11:e6 2*7:e6 1*2:e6 1*5:e6 105*7:e6 177:e6 3d*4:e6 5e0*7:dc",
  "6d*6:e6 7"])

/-- Reads words `gap:second>whole,...` into the pairs that compose. -/
def compositionPairs (start : Nat) : List (List Char) → List ((Nat × Nat) × Nat)
  | [] => []
  | word :: rest =>
    match parts ':' word with
    | [gap, data] =>
      let first := start + ofHex gap
      let pairs := (parts ',' data).filterMap fun item =>
        match parts '>' item with
        | [second, whole] => some ((first, ofHex second), ofHex whole)
        | _ => none
      pairs ++ compositionPairs first rest
    | _ => compositionPairs start rest

/-- Pairs of code points and the code point they compose to. -/
def compositions : List ((Nat × Nat) × Nat) := compositionPairs 0 (words [
  "3c:338>226e 1:338>2260 1:338>226f",
  "3:300>c0,301>c1,302>c2,303>c3,304>100,306>102,307>226,308>c4,309>1ea2,30a>c5,30c>1cd,30f>200",
  "0:311>202,323>1ea0,325>1e00,328>104 1:307>1e02,323>1e04,331>1e06",
  "1:301>106,302>108,307>10a,30c>10c,327>c7 1:307>1e0a,30c>10e,323>1e0c,327>1e10,32d>1e12,331>1e0e",
  "1:300>c8,301>c9,302>ca,303>1ebc,304>112,306>114,307>116,308>cb,309>1eba,30c>11a,30f>204",
  "0:311>206,323>1eb8,327>228,328>118,32d>1e18,330>1e1a 1:307>1e1e",
  "1:301>1f4,302>11c,304>1e20,306>11e,307>120,30c>1e6,327>122",
  "1:302>124,307>1e22,308>1e26,30c>21e,323>1e24,327>1e28,32e>1e2a",
  "1:300>cc,301>cd,302>ce,303>128,304>12a,306>12c,307>130,308>cf,309>1ec8,30c>1cf,30f>208",
  "0:311>20a,323>1eca,328>12e,330>1e2c 1:302>134 1:301>1e30,30c>1e8,323>1e32,327>136,331>1e34",
  "1:301>139,30c>13d,323>1e36,327>13b,32d>1e3c,331>1e3a 1:301>1e3e,307>1e40,323>1e42",
  "1:300>1f8,301>143,303>d1,307>1e44,30c>147,323>1e46,327>145,32d>1e4a,331>1e48",
  "1:300>d2,301>d3,302>d4,303>d5,304>14c,306>14e,307>22e,308>d6,309>1ece,30b>150,30c>1d1,30f>20c",
  "0:311>20e,31b>1a0,323>1ecc,328>1ea 1:301>1e54,307>1e56",
  "2:301>154,307>1e58,30c>158,30f>210,311>212,323>1e5a,327>156,331>1e5e",
  "1:301>15a,302>15c,307>1e60,30c>160,323>1e62,326>218,327>15e",
  "1:307>1e6a,30c>164,323>1e6c,326>21a,327>162,32d>1e70,331>1e6e",
  "1:300>d9,301>da,302>db,303>168,304>16a,306>16c,308>dc,309>1ee6,30a>16e,30b>170,30c>1d3",
  "0:30f>214,311>216,31b>1af,323>1ee4,324>1e72,328>172,32d>1e76,330>1e74 1:303>1e7c,323>1e7e",
  "1:300>1e80,301>1e82,302>174,307>1e86,308>1e84,323>1e88 1:307>1e8a,308>1e8c",
  "1:300>1ef2,301>dd,302>176,303>1ef8,304>232,307>1e8e,308>178,309>1ef6,323>1ef4",
  "1:301>179,302>1e90,307>17b,30c>17d,323>1e92,331>1e94",
  "7:300>e0,301>e1,302>e2,303>e3,304>101,306>103,307>227,308>e4,309>1ea3,30a>e5,30c>1ce,30f>201",
  "0:311>203,323>1ea1,325>1e01,328>105 1:307>1e03,323>1e05,331>1e07",
  "1:301>107,302>109,307>10b,30c>10d,327>e7 1:307>1e0b,30c>10f,323>1e0d,327>1e11,32d>1e13,331>1e0f",
  "1:300>e8,301>e9,302>ea,303>1ebd,304>113,306>115,307>117,308>eb,309>1ebb,30c>11b,30f>205",
  "0:311>207,323>1eb9,327>229,328>119,32d>1e19,330>1e1b 1:307>1e1f",
  "1:301>1f5,302>11d,304>1e21,306>11f,307>121,30c>1e7,327>123",
  "1:302>125,307>1e23,308>1e27,30c>21f,323>1e25,327>1e29,32e>1e2b,331>1e96",
  "1:300>ec,301>ed,302>ee,303>129,304>12b,306>12d,308>ef,309>1ec9,30c>1d0,30f>209,311>20b",
  "0:323>1ecb,328>12f,330>1e2d 1:302>135,30c>1f0 1:301>1e31,30c>1e9,323>1e33,327>137,331>1e35",
  "1:301>13a,30c>13e,323>1e37,327>13c,32d>1e3d,331>1e3b 1:301>1e3f,307>1e41,323>1e43",
  "1:300>1f9,301>144,303>f1,307>1e45,30c>148,323>1e47,327>146,32d>1e4b,331>1e49",
  "1:300>f2,301>f3,302>f4,303>f5,304>14d,306>14f,307>22f,308>f6,309>1ecf,30b>151,30c>1d2,30f>20d",
  "0:311>20f,31b>1a1,323>1ecd,328>1eb 1:301>1e55,307>1e57",
  "2:301>155,307>1e59,30c>159,30f>211,311>213,323>1e5b,327>157,331>1e5f",
  "1:301>15b,302>15d,307>1e61,30c>161,323>1e63,326>219,327>15f",
  "1:307>1e6b,308>1e97,30c>165,323>1e6d,326>21b,327>163,32d>1e71,331>1e6f",
  "1:300>f9,301>fa,302>fb,303>169,304>16b,306>16d,308>fc,309>1ee7,30a>16f,30b>171,30c>1d4",
  "0:30f>215,311>217,31b>1b0,323>1ee5,324>1e73,328>173,32d>1e77,330>1e75 1:303>1e7d,323>1e7f",
  "1:300>1e81,301>1e83,302>175,307>1e87,308>1e85,30a>1e98,323>1e89 1:307>1e8b,308>1e8d",
  "1:300>1ef3,301>fd,302>177,303>1ef9,304>233,307>1e8f,308>ff,309>1ef7,30a>1e99,323>1ef5",
  "1:301>17a,302>1e91,307>17c,30c>17e,323>1e93,331>1e95 2e:300>1fed,301>385,342>1fc1",
  "1a:300>1ea6,301>1ea4,303>1eaa,309>1ea8 2:304>1de 1:301>1fa 1:301>1fc,304>1e2 1:301>1e08",
  "3:300>1ec0,301>1ebe,303>1ec4,309>1ec2 5:301>1e2e 5:300>1ed2,301>1ed0,303>1ed6,309>1ed4",
  "1:301>1e4c,304>22c,308>1e4e 1:304>22a 2:301>1fe 4:300>1db,301>1d7,304>1d5,30c>1d9",
  "6:300>1ea7,301>1ea5,303>1eab,309>1ea9 2:304>1df 1:301>1fb 1:301>1fd,304>1e3 1:301>1e09",
  "3:300>1ec1,301>1ebf,303>1ec5,309>1ec3 5:301>1e2f 5:300>1ed3,301>1ed1,303>1ed7,309>1ed5",
  "1:301>1e4d,304>22d,308>1e4f 1:304>22b 2:301>1ff 4:300>1dc,301>1d8,304>1d6,30c>1da",
  "6:300>1eb0,301>1eae,303>1eb4,309>1eb2 1:300>1eb1,301>1eaf,303>1eb5,309>1eb3 f:300>1e14,301>1e16",
  "1:300>1e15,301>1e17 39:300>1e50,301>1e52 1:300>1e51,301>1e53 d:307>1e64 1:307>1e65 5:307>1e66",
  "1:307>1e67 7:301>1e78 1:301>1e79 1:308>1e7a 1:308>1e7b 14:307>1e9b",
  "21:300>1edc,301>1eda,303>1ee0,309>1ede,323>1ee2 1:300>1edd,301>1edb,303>1ee1,309>1edf,323>1ee3",
  "e:300>1eea,301>1ee8,303>1eee,309>1eec,323>1ef0 1:300>1eeb,301>1ee9,303>1eef,309>1eed,323>1ef1",
  "7:30c>1ee 33:304>1ec 1:304>1ed 3b:304>1e0 1:304>1e1 1:306>1e1c 1:306>1e1d 5:304>230 1:304>231",
  "63:30c>1ef ff:300>1fba,301>386,304>1fb9,306>1fb8,313>1f08,314>1f09,345>1fbc",
  "4:300>1fc8,301>388,313>1f18,314>1f19 2:300>1fca,301>389,313>1f28,314>1f29,345>1fcc",
  "2:300>1fda,301>38a,304>1fd9,306>1fd8,308>3aa,313>1f38,314>1f39",
  "6:300>1ff8,301>38c,313>1f48,314>1f49 2:314>1fec",
  "4:300>1fea,301>38e,304>1fe9,306>1fe8,308>3ab,314>1f59",
  "4:300>1ffa,301>38f,313>1f68,314>1f69,345>1ffc 3:345>1fb4 2:345>1fc4",
  "3:300>1f70,301>3ac,304>1fb1,306>1fb0,313>1f00,314>1f01,342>1fb6,345>1fb3",
  "4:300>1f72,301>3ad,313>1f10,314>1f11 2:300>1f74,301>3ae,313>1f20,314>1f21,342>1fc6,345>1fc3",
  "2:300>1f76,301>3af,304>1fd1,306>1fd0,308>3ca,313>1f30,314>1f31,342>1fd6",
  "6:300>1f78,301>3cc,313>1f40,314>1f41 2:313>1fe4,314>1fe5",
  "4:300>1f7a,301>3cd,304>1fe1,306>1fe0,308>3cb,313>1f50,314>1f51,342>1fe6",
  "4:300>1f7c,301>3ce,313>1f60,314>1f61,342>1ff6,345>1ff3 1:300>1fd2,301>390,342>1fd7",
  "1:300>1fe2,301>3b0,342>1fe7 3:345>1ff4 4:301>3d3,308>3d4 34:308>407 a:306>4d0,308>4d2 3:301>403",
  "2:300>400,306>4d6,308>401 1:306>4c1,308>4dc 1:308>4de 1:300>40d,304>4e2,306>419,308>4e4",
  "2:301>40c 4:308>4e6 5:304>4ee,306>40e,308>4f0,30b>4f2 4:308>4f4 4:308>4f8 2:308>4ec",
  "3:306>4d1,308>4d3 3:301>453 2:300>450,306>4d7,308>451 1:306>4c2,308>4dd 1:308>4df",
  "1:300>45d,304>4e3,306>439,308>4e5 2:301>45c 4:308>4e7 5:304>4ef,306>45e,308>4f1,30b>4f3",
  "4:308>4f5 4:308>4f9 2:308>4ed 9:308>457 1e:30f>476 1:30f>477 63:308>4da 1:308>4db f:308>4ea",
  "1:308>4eb 13e:653>622,654>623,655>625 21:654>624 2:654>626 77:654>6c2 11:654>6d3 3:654>6c0",
  "253:93c>929 8:93c>931 3:93c>934 94:9be>9cb,9d7>9cc 180:b3e>b4b,b56>b48,b57>b4c 4b:bd7>b94",
  "34:bbe>bca,bd7>bcc 1:bbe>bcb 7f:c56>c48 79:cd5>cc0 7:cc2>cca,cd5>cc7,cd6>cc8 4:cd5>ccb",
  "7c:d3e>d4a,d57>d4c 1:d3e>d4b 92:dca>dda,dcf>ddc,ddf>dde 3:dca>ddd 249:102e>1026 ae0:1b35>1b06",
  "2:1b35>1b08 2:1b35>1b0a 2:1b35>1b0c 2:1b35>1b0e 4:1b35>1b12 29:1b35>1b3b 2:1b35>1b3d",
  "2:1b35>1b40 1:1b35>1b41 3:1b35>1b43 2f4:304>1e38 1:304>1e39 23:304>1e5c 1:304>1e5d 7:307>1e68",
  "1:307>1e69 3d:302>1eac,306>1eb6 1:302>1ead,306>1eb7 17:302>1ec6 1:302>1ec7 13:302>1ed8",
  "1:302>1ed9 33:300>1f02,301>1f04,342>1f06,345>1f80 1:300>1f03,301>1f05,342>1f07,345>1f81",
  "1:345>1f82 1:345>1f83 1:345>1f84 1:345>1f85 1:345>1f86 1:345>1f87",
  "1:300>1f0a,301>1f0c,342>1f0e,345>1f88 1:300>1f0b,301>1f0d,342>1f0f,345>1f89 1:345>1f8a",
  "1:345>1f8b 1:345>1f8c 1:345>1f8d 1:345>1f8e 1:345>1f8f 1:300>1f12,301>1f14 1:300>1f13,301>1f15",
  "7:300>1f1a,301>1f1c 1:300>1f1b,301>1f1d 7:300>1f22,301>1f24,342>1f26,345>1f90",
  "1:300>1f23,301>1f25,342>1f27,345>1f91 1:345>1f92 1:345>1f93 1:345>1f94 1:345>1f95 1:345>1f96",
  "1:345>1f97 1:300>1f2a,301>1f2c,342>1f2e,345>1f98 1:300>1f2b,301>1f2d,342>1f2f,345>1f99",
  "1:345>1f9a 1:345>1f9b 1:345>1f9c 1:345>1f9d 1:345>1f9e 1:345>1f9f 1:300>1f32,301>1f34,342>1f36",
  "1:300>1f33,301>1f35,342>1f37 7:300>1f3a,301>1f3c,342>1f3e 1:300>1f3b,301>1f3d,342>1f3f",
  "7:300>1f42,301>1f44 1:300>1f43,301>1f45 7:300>1f4a,301>1f4c 1:300>1f4b,301>1f4d",
  "7:300>1f52,301>1f54,342>1f56 1:300>1f53,301>1f55,342>1f57 8:300>1f5b,301>1f5d,342>1f5f",
  "7:300>1f62,301>1f64,342>1f66,345>1fa0 1:300>1f63,301>1f65,342>1f67,345>1fa1 1:345>1fa2",
  "1:345>1fa3 1:345>1fa4 1:345>1fa5 1:345>1fa6 1:345>1fa7 1:300>1f6a,301>1f6c,342>1f6e,345>1fa8",
  "1:300>1f6b,301>1f6d,342>1f6f,345>1fa9 1:345>1faa 1:345>1fab 1:345>1fac 1:345>1fad 1:345>1fae",
  "1:345>1faf 1:345>1fb2 4:345>1fc2 8:345>1ff2 3a:345>1fb7 9:300>1fcd,301>1fce,342>1fcf 7:345>1fc7",
  "30:345>1ff7 8:300>1fdd,301>1fde,342>1fdf 192:338>219a 2:338>219b 2:338>21ae 3c:338>21cd",
  "2:338>21cf 2:338>21ce 2f:338>2204 5:338>2209 3:338>220c 18:338>2224 2:338>2226 17:338>2241",
  "7:338>2244 2:338>2247 3:338>2249 5:338>226d 14:338>2262 3:338>2270 1:338>2271 d:338>2274",
  "1:338>2275 3:338>2278 1:338>2279 3:338>2280 1:338>2281 1:338>22e0 1:338>22e1 5:338>2284",
  "1:338>2285 3:338>2288 1:338>2289 a:338>22e2 1:338>22e3 10:338>22ac 6:338>22ad 1:338>22ae",
  "2:338>22af 7:338>22ea 1:338>22eb 1:338>22ec 1:338>22ed d91:3099>3094 5:3099>304c 2:3099>304e",
  "2:3099>3050 2:3099>3052 2:3099>3054 2:3099>3056 2:3099>3058 2:3099>305a 2:3099>305c 2:3099>305e",
  "2:3099>3060 2:3099>3062 3:3099>3065 2:3099>3067 2:3099>3069 7:3099>3070,309a>3071",
  "3:3099>3073,309a>3074 3:3099>3076,309a>3077 3:3099>3079,309a>307a 3:3099>307c,309a>307d",
  "22:3099>309e 9:3099>30f4 5:3099>30ac 2:3099>30ae 2:3099>30b0 2:3099>30b2 2:3099>30b4",
  "2:3099>30b6 2:3099>30b8 2:3099>30ba 2:3099>30bc 2:3099>30be 2:3099>30c0 2:3099>30c2 3:3099>30c5",
  "2:3099>30c7 2:3099>30c9 7:3099>30d0,309a>30d1 3:3099>30d3,309a>30d4 3:3099>30d6,309a>30d7",
  "3:3099>30d9,309a>30da 3:3099>30dc,309a>30dd 14:3099>30f7 1:3099>30f8 1:3099>30f9 1:3099>30fa",
  "b:3099>30fe df9c:110ba>1109a 2:110ba>1109c a:110ba>110ab 8c:11127>1112e 1:11127>1112f",
  "215:1133e>1134b,11357>1134c 172:114b0>114bc,114ba>114bb,114bd>114be ff:115af>115ba",
  "1:115af>115bb 37c:11930>11938"])

/-- The run that a code point belongs to. -/
def findRun? (table : List MappedRun) (n : Nat) : Option MappedRun :=
  table.find? fun r => r.first ≤ n && n < r.first + r.count

/-- The full compatibility decomposition of a code point. -/
def decompose (n : Nat) : List Nat :=
  if n < 128 then [n]
  else if 0xAC00 ≤ n && n ≤ 0xD7A3 then
    let s := n - 0xAC00
    let vowel := [0x1100 + s / 588, 0x1161 + s % 588 / 28]
    if s % 28 = 0 then vowel else vowel ++ [0x11A7 + s % 28]
  else
    match findRun? decompositions n with
    | some ⟨first, _, [target]⟩ => [target + (n - first)]
    | some run => run.data
    | none => [n]

/-- The canonical combining class of a code point. -/
def combiningClass (n : Nat) : Nat :=
  match findRun? combiningClasses n with
  | some ⟨_, _, [k]⟩ => k
  | _ => 0

/-- Sorts every stretch of combining marks by class, keeping the order of marks of one class. -/
def insertMark (n : Nat) : List Nat → List Nat
  | [] => [n]
  | m :: rest =>
    -- `rest` is in reverse order, so the last mark written comes first
    let k := combiningClass n
    if k ≠ 0 && k < combiningClass m then m :: insertMark n rest else n :: m :: rest

/-- Canonical order of combining marks. -/
def orderMarks (ns : List Nat) : List Nat := (ns.foldl (fun done n => insertMark n done) []).reverse

/-- The code point that two others compose to. -/
def composePair? (a b : Nat) : Option Nat :=
  if 0x1100 ≤ a && a ≤ 0x1112 && 0x1161 ≤ b && b ≤ 0x1175 then
    some (0xAC00 + ((a - 0x1100) * 21 + (b - 0x1161)) * 28)
  else if 0xAC00 ≤ a && a ≤ 0xD7A3 && (a - 0xAC00) % 28 = 0 && 0x11A8 ≤ b && b ≤ 0x11C2 then
    some (a + (b - 0x11A7))
  else compositions.lookup (a, b)

/-- Composes the code points after a `starter`. `kept` holds, reversed, the marks since the starter
that did not compose with it; a mark is blocked by a kept one of the same or a higher class. -/
def composeAfter (starter : Nat) (kept : List Nat) : List Nat → List Nat
  | [] => starter :: kept.reverse
  | n :: rest =>
    let k := combiningClass n
    let blocked := match kept with
      | [] => false
      | m :: _ => k ≤ combiningClass m
    match (if blocked then none else composePair? starter n) with
    | some whole => composeAfter whole kept rest
    | none =>
      if k = 0 then starter :: kept.reverse ++ composeAfter n [] rest
      else composeAfter starter (n :: kept) rest

/-- Canonical composition. Marks before the first starter stay as they are. -/
def compose (ns : List Nat) : List Nat :=
  let marks := ns.takeWhile (combiningClass · ≠ 0)
  match ns.dropWhile (combiningClass · ≠ 0) with
  | [] => marks
  | n :: rest => marks ++ composeAfter n [] rest

/-- The normal form NFKC of an identifier. -/
def normalizeIdentifier (s : String) : String :=
  if s.toList.all (·.toNat < 128) then s
  else
    let ns := s.toList.flatMap fun c => decompose c.toNat
    String.ofList ((compose (orderMarks ns)).map Char.ofNat)

end Scorecard.Text
