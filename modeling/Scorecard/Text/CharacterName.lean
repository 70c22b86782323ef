import Scorecard.Text.CharClass

set_option autoImplicit false

/-! # Characters by name

A text literal may name a character. Which names there are depends on the version of Unicode, so the
lookup is a parameter of everything that reads literals (`CharacterNames`). The table here lists the
names of the letters, signs and symbols in common use, each after its code point.
-/

namespace Scorecard.Text

/-- The characters that have names. -/
class CharacterNames where
  /-- The character with a name. -/
  named? : String → Option Char

/-- Code points and the ends of names, separated by semicolons, after what these names begin
with. -/
def nameGroups : List (String × List String) := [
  ("", [
    "0 NULL; 7 ALERT; 8 BACKSPACE; 9 CHARACTER TABULATION; a LINE FEED; a NEW LINE",
    "b LINE TABULATION; c FORM FEED; d CARRIAGE RETURN; 1b ESCAPE; 20 SPACE; 21 EXCLAMATION MARK",
    "22 QUOTATION MARK; 23 NUMBER SIGN; 24 DOLLAR SIGN; 25 PERCENT SIGN; 26 AMPERSAND",
    "27 APOSTROPHE; 28 LEFT PARENTHESIS; 29 RIGHT PARENTHESIS; 2a ASTERISK; 2b PLUS SIGN",
    "2c COMMA; 2d HYPHEN-MINUS; 2e FULL STOP; 2f SOLIDUS; 30 DIGIT ZERO; 31 DIGIT ONE",
    "32 DIGIT TWO; 33 DIGIT THREE; 34 DIGIT FOUR; 35 DIGIT FIVE; 36 DIGIT SIX; 37 DIGIT SEVEN",
    "38 DIGIT EIGHT; 39 DIGIT NINE; 3a COLON; 3b SEMICOLON; 3c LESS-THAN SIGN; 3d EQUALS SIGN",
    "3e GREATER-THAN SIGN; 3f QUESTION MARK; 40 COMMERCIAL AT; 5b LEFT SQUARE BRACKET",
    "5c REVERSE SOLIDUS; 5d RIGHT SQUARE BRACKET; 5e CIRCUMFLEX ACCENT; 5f LOW LINE",
    "60 GRAVE ACCENT; 7b LEFT CURLY BRACKET; 7c VERTICAL LINE; 7d RIGHT CURLY BRACKET; 7e TILDE",
    "7f DELETE; 85 NEXT LINE; a0 NO-BREAK SPACE; a1 INVERTED EXCLAMATION MARK; a2 CENT SIGN",
    "a3 POUND SIGN; a4 CURRENCY SIGN; a5 YEN SIGN; a6 BROKEN BAR; a7 SECTION SIGN; a8 DIAERESIS",
    "a9 COPYRIGHT SIGN; aa FEMININE ORDINAL INDICATOR",
    "ab LEFT-POINTING DOUBLE ANGLE QUOTATION MARK; ac NOT SIGN; ad SOFT HYPHEN",
    "ae REGISTERED SIGN; af MACRON; b0 DEGREE SIGN; b1 PLUS-MINUS SIGN; b2 SUPERSCRIPT TWO",
    "b3 SUPERSCRIPT THREE; b4 ACUTE ACCENT; b5 MICRO SIGN; b6 PILCROW SIGN; b7 MIDDLE DOT",
    "b8 CEDILLA; b9 SUPERSCRIPT ONE; ba MASCULINE ORDINAL INDICATOR",
    "bb RIGHT-POINTING DOUBLE ANGLE QUOTATION MARK; bc VULGAR FRACTION ONE QUARTER",
    "bd VULGAR FRACTION ONE HALF; be VULGAR FRACTION THREE QUARTERS; bf INVERTED QUESTION MARK",
    "d7 MULTIPLICATION SIGN; f7 DIVISION SIGN; 132 LATIN CAPITAL LIGATURE IJ",
    "133 LATIN SMALL LIGATURE IJ; 152 LATIN CAPITAL LIGATURE OE; 153 LATIN SMALL LIGATURE OE",
    "300 COMBINING GRAVE ACCENT; 301 COMBINING ACUTE ACCENT; 302 COMBINING CIRCUMFLEX ACCENT",
    "303 COMBINING TILDE; 308 COMBINING DIAERESIS; 2002 EN SPACE; 2003 EM SPACE; 2009 THIN SPACE",
    "200b ZERO WIDTH SPACE; 200c ZERO WIDTH NON-JOINER; 200d ZERO WIDTH JOINER",
    "200e LEFT-TO-RIGHT MARK; 200f RIGHT-TO-LEFT MARK; 2010 HYPHEN; 2011 NON-BREAKING HYPHEN",
    "2012 FIGURE DASH; 2013 EN DASH; 2014 EM DASH; 2015 HORIZONTAL BAR",
    "2016 DOUBLE VERTICAL LINE; 2017 DOUBLE LOW LINE; 2018 LEFT SINGLE QUOTATION MARK",
    "2019 RIGHT SINGLE QUOTATION MARK; 201a SINGLE LOW-9 QUOTATION MARK",
    "201b SINGLE HIGH-REVERSED-9 QUOTATION MARK; 201c LEFT DOUBLE QUOTATION MARK",
    "201d RIGHT DOUBLE QUOTATION MARK; 201e DOUBLE LOW-9 QUOTATION MARK",
    "201f DOUBLE HIGH-REVERSED-9 QUOTATION MARK; 2020 DAGGER; 2021 DOUBLE DAGGER; 2022 BULLET",
    "2023 TRIANGULAR BULLET; 2024 ONE DOT LEADER; 2025 TWO DOT LEADER; 2026 HORIZONTAL ELLIPSIS",
    "2027 HYPHENATION POINT; 2028 LINE SEPARATOR; 2029 PARAGRAPH SEPARATOR; 2030 PER MILLE SIGN",
    "2031 PER TEN THOUSAND SIGN; 2032 PRIME; 2033 DOUBLE PRIME; 2034 TRIPLE PRIME",
    "2035 REVERSED PRIME; 2036 REVERSED DOUBLE PRIME; 2037 REVERSED TRIPLE PRIME; 2038 CARET",
    "2039 SINGLE LEFT-POINTING ANGLE QUOTATION MARK",
    "203a SINGLE RIGHT-POINTING ANGLE QUOTATION MARK; 20a0 EURO-CURRENCY SIGN; 20a1 COLON SIGN",
    "20a2 CRUZEIRO SIGN; 20a3 FRENCH FRANC SIGN; 20a4 LIRA SIGN; 20a5 MILL SIGN; 20a6 NAIRA SIGN",
    "20a7 PESETA SIGN; 20a8 RUPEE SIGN; 20a9 WON SIGN; 20aa NEW SHEQEL SIGN; 20ab DONG SIGN",
    "20ac EURO SIGN; 20ad KIP SIGN; 20ae TUGRIK SIGN; 20af DRACHMA SIGN; 20b0 GERMAN PENNY SIGN",
    "20b1 PESO SIGN; 20b2 GUARANI SIGN; 20b3 AUSTRAL SIGN; 20b4 HRYVNIA SIGN; 20b5 CEDI SIGN",
    "20b6 LIVRE TOURNOIS SIGN; 20b7 SPESMILO SIGN; 20b8 TENGE SIGN; 20b9 INDIAN RUPEE SIGN",
    "20ba TURKISH LIRA SIGN; 20bb NORDIC MARK SIGN; 20bc MANAT SIGN; 20bd RUBLE SIGN",
    "20be LARI SIGN; 20bf BITCOIN SIGN; 2100 ACCOUNT OF; 2103 DEGREE CELSIUS",
    "2109 DEGREE FAHRENHEIT; 2116 NUMERO SIGN; 2117 SOUND RECORDING COPYRIGHT",
    "2122 TRADE MARK SIGN; 2126 OHM SIGN; 212a KELVIN SIGN; 212b ANGSTROM SIGN",
    "2190 LEFTWARDS ARROW; 2191 UPWARDS ARROW; 2192 RIGHTWARDS ARROW; 2193 DOWNWARDS ARROW",
    "2194 LEFT RIGHT ARROW; 2195 UP DOWN ARROW; 2196 NORTH WEST ARROW; 2197 NORTH EAST ARROW",
    "2198 SOUTH EAST ARROW; 2199 SOUTH WEST ARROW; 21d0 LEFTWARDS DOUBLE ARROW",
    "21d1 UPWARDS DOUBLE ARROW; 21d2 RIGHTWARDS DOUBLE ARROW; 21d3 DOWNWARDS DOUBLE ARROW",
    "21d4 LEFT RIGHT DOUBLE ARROW; 21d5 UP DOWN DOUBLE ARROW; 2200 FOR ALL; 2201 COMPLEMENT",
    "2202 PARTIAL DIFFERENTIAL; 2203 THERE EXISTS; 2204 THERE DOES NOT EXIST; 2205 EMPTY SET",
    "2206 INCREMENT; 2207 NABLA; 2208 ELEMENT OF; 2209 NOT AN ELEMENT OF; 220a SMALL ELEMENT OF",
    "220b CONTAINS AS MEMBER; 220c DOES NOT CONTAIN AS MEMBER; 220d SMALL CONTAINS AS MEMBER",
    "220e END OF PROOF; 220f N-ARY PRODUCT; 2210 N-ARY COPRODUCT; 2211 N-ARY SUMMATION",
    "2212 MINUS SIGN; 2213 MINUS-OR-PLUS SIGN; 2215 DIVISION SLASH; 2216 SET MINUS",
    "2217 ASTERISK OPERATOR; 2218 RING OPERATOR; 2219 BULLET OPERATOR; 221a SQUARE ROOT",
    "221b CUBE ROOT; 221c FOURTH ROOT; 221d PROPORTIONAL TO; 221e INFINITY; 2227 LOGICAL AND",
    "2228 LOGICAL OR; 2229 INTERSECTION; 222a UNION; 222b INTEGRAL; 2248 ALMOST EQUAL TO",
    "2260 NOT EQUAL TO; 2261 IDENTICAL TO; 2264 LESS-THAN OR EQUAL TO",
    "2265 GREATER-THAN OR EQUAL TO; 2282 SUBSET OF; 2283 SUPERSET OF; 2284 NOT A SUBSET OF",
    "2285 NOT A SUPERSET OF; 2286 SUBSET OF OR EQUAL TO; 2287 SUPERSET OF OR EQUAL TO",
    "2500 BOX DRAWINGS LIGHT HORIZONTAL; 2501 BOX DRAWINGS HEAVY HORIZONTAL",
    "2502 BOX DRAWINGS LIGHT VERTICAL; 2503 BOX DRAWINGS HEAVY VERTICAL; 2580 UPPER HALF BLOCK",
    "2584 LOWER HALF BLOCK; 2588 FULL BLOCK; 2591 LIGHT SHADE; 2592 MEDIUM SHADE",
    "2593 DARK SHADE; 25a0 BLACK SQUARE; 25a1 WHITE SQUARE; 25b2 BLACK UP-POINTING TRIANGLE",
    "25b3 WHITE UP-POINTING TRIANGLE; 25b6 BLACK RIGHT-POINTING TRIANGLE",
    "25bc BLACK DOWN-POINTING TRIANGLE; 25bd WHITE DOWN-POINTING TRIANGLE",
    "25c0 BLACK LEFT-POINTING TRIANGLE; 25c6 BLACK DIAMOND; 25c7 WHITE DIAMOND",
    "25cb WHITE CIRCLE; 25cf BLACK CIRCLE; 2600 BLACK SUN WITH RAYS; 2601 CLOUD; 2602 UMBRELLA",
    "2603 SNOWMAN; 2604 COMET; 2605 BLACK STAR; 2606 WHITE STAR; 260e BLACK TELEPHONE",
    "2610 BALLOT BOX; 2611 BALLOT BOX WITH CHECK; 2612 BALLOT BOX WITH X; 2613 SALTIRE",
    "2614 UMBRELLA WITH RAIN DROPS; 2620 SKULL AND CROSSBONES; 2622 RADIOACTIVE SIGN",
    "2623 BIOHAZARD SIGN; 262e PEACE SYMBOL; 262f YIN YANG; 2639 WHITE FROWNING FACE",
    "263a WHITE SMILING FACE; 263b BLACK SMILING FACE; 2640 FEMALE SIGN; 2641 EARTH",
    "2642 MALE SIGN; 2654 WHITE CHESS KING; 2655 WHITE CHESS QUEEN; 2656 WHITE CHESS ROOK",
    "2657 WHITE CHESS BISHOP; 2658 WHITE CHESS KNIGHT; 2659 WHITE CHESS PAWN",
    "265a BLACK CHESS KING; 265b BLACK CHESS QUEEN; 265c BLACK CHESS ROOK",
    "265d BLACK CHESS BISHOP; 265e BLACK CHESS KNIGHT; 265f BLACK CHESS PAWN",
    "2660 BLACK SPADE SUIT; 2661 WHITE HEART SUIT; 2662 WHITE DIAMOND SUIT; 2663 BLACK CLUB SUIT",
    "2664 WHITE SPADE SUIT; 2665 BLACK HEART SUIT; 2666 BLACK DIAMOND SUIT; 2667 WHITE CLUB SUIT",
    "266a EIGHTH NOTE; 266b BEAMED EIGHTH NOTES; 266d MUSIC FLAT SIGN; 266e MUSIC NATURAL SIGN",
    "266f MUSIC SHARP SIGN; 2690 WHITE FLAG; 2691 BLACK FLAG; 26a0 WARNING SIGN",
    "26a1 HIGH VOLTAGE SIGN; 2702 BLACK SCISSORS; 2708 AIRPLANE; 2709 ENVELOPE; 2713 CHECK MARK",
    "2714 HEAVY CHECK MARK; 2715 MULTIPLICATION X; 2716 HEAVY MULTIPLICATION X; 2717 BALLOT X",
    "2718 HEAVY BALLOT X; 2728 SPARKLES; 2744 SNOWFLAKE; 274c CROSS MARK; 2764 HEAVY BLACK HEART",
    "2795 HEAVY PLUS SIGN; 2796 HEAVY MINUS SIGN; 2797 HEAVY DIVISION SIGN",
    "27a1 BLACK RIGHTWARDS ARROW; 2b50 WHITE MEDIUM STAR; 3000 IDEOGRAPHIC SPACE",
    "3001 IDEOGRAPHIC COMMA; 3002 IDEOGRAPHIC FULL STOP; feff ZERO WIDTH NO-BREAK SPACE",
    "fffd REPLACEMENT CHARACTER; 1f300 CYCLONE; 1f301 FOGGY; 1f302 CLOSED UMBRELLA",
    "1f303 NIGHT WITH STARS; 1f304 SUNRISE OVER MOUNTAINS; 1f305 SUNRISE",
    "1f306 CITYSCAPE AT DUSK; 1f307 SUNSET OVER BUILDINGS; 1f308 RAINBOW; 1f309 BRIDGE AT NIGHT",
    "1f30a WATER WAVE; 1f30b VOLCANO; 1f30c MILKY WAY; 1f30d EARTH GLOBE EUROPE-AFRICA",
    "1f30e EARTH GLOBE AMERICAS; 1f30f EARTH GLOBE ASIA-AUSTRALIA; 1f389 PARTY POPPER",
    "1f40d SNAKE; 1f44b WAVING HAND SIGN; 1f44c OK HAND SIGN; 1f44d THUMBS UP SIGN",
    "1f44e THUMBS DOWN SIGN; 1f44f CLAPPING HANDS SIGN; 1f480 SKULL; 1f4a9 PILE OF POO",
    "1f4af HUNDRED POINTS SYMBOL; 1f514 BELL; 1f525 FIRE; 1f600 GRINNING FACE",
    "1f601 GRINNING FACE WITH SMILING EYES; 1f602 FACE WITH TEARS OF JOY",
    "1f603 SMILING FACE WITH OPEN MOUTH; 1f604 SMILING FACE WITH OPEN MOUTH AND SMILING EYES",
    "1f605 SMILING FACE WITH OPEN MOUTH AND COLD SWEAT",
    "1f606 SMILING FACE WITH OPEN MOUTH AND TIGHTLY-CLOSED EYES; 1f607 SMILING FACE WITH HALO",
    "1f608 SMILING FACE WITH HORNS; 1f609 WINKING FACE; 1f60a SMILING FACE WITH SMILING EYES",
    "1f60b FACE SAVOURING DELICIOUS FOOD; 1f60c RELIEVED FACE",
    "1f60d SMILING FACE WITH HEART-SHAPED EYES; 1f60e SMILING FACE WITH SUNGLASSES",
    "1f60f SMIRKING FACE; 1f610 NEUTRAL FACE; 1f611 EXPRESSIONLESS FACE; 1f612 UNAMUSED FACE",
    "1f613 FACE WITH COLD SWEAT; 1f614 PENSIVE FACE; 1f615 CONFUSED FACE; 1f616 CONFOUNDED FACE",
    "1f617 KISSING FACE; 1f618 FACE THROWING A KISS; 1f619 KISSING FACE WITH SMILING EYES",
    "1f61a KISSING FACE WITH CLOSED EYES; 1f61b FACE WITH STUCK-OUT TONGUE",
    "1f61c FACE WITH STUCK-OUT TONGUE AND WINKING EYE",
    "1f61d FACE WITH STUCK-OUT TONGUE AND TIGHTLY-CLOSED EYES; 1f61e DISAPPOINTED FACE",
    "1f61f WORRIED FACE; 1f620 ANGRY FACE; 1f621 POUTING FACE; 1f622 CRYING FACE",
    "1f623 PERSEVERING FACE; 1f624 FACE WITH LOOK OF TRIUMPH",
    "1f625 DISAPPOINTED BUT RELIEVED FACE; 1f626 FROWNING FACE WITH OPEN MOUTH",
    "1f627 ANGUISHED FACE; 1f628 FEARFUL FACE; 1f629 WEARY FACE; 1f62a SLEEPY FACE",
    "1f62b TIRED FACE; 1f62c GRIMACING FACE; 1f62d LOUDLY CRYING FACE",
    "1f62e FACE WITH OPEN MOUTH; 1f62f HUSHED FACE; 1f630 FACE WITH OPEN MOUTH AND COLD SWEAT",
    "1f631 FACE SCREAMING IN FEAR; 1f632 ASTONISHED FACE; 1f633 FLUSHED FACE",
    "1f634 SLEEPING FACE; 1f635 DIZZY FACE; 1f636 FACE WITHOUT MOUTH",
    "1f637 FACE WITH MEDICAL MASK; 1f638 GRINNING CAT FACE WITH SMILING EYES",
    "1f639 CAT FACE WITH TEARS OF JOY; 1f63a SMILING CAT FACE WITH OPEN MOUTH",
    "1f63b SMILING CAT FACE WITH HEART-SHAPED EYES; 1f63c CAT FACE WITH WRY SMILE",
    "1f63d KISSING CAT FACE WITH CLOSED EYES; 1f63e POUTING CAT FACE; 1f63f CRYING CAT FACE",
    "1f640 WEARY CAT FACE; 1f641 SLIGHTLY FROWNING FACE; 1f642 SLIGHTLY SMILING FACE",
    "1f643 UPSIDE-DOWN FACE; 1f644 FACE WITH ROLLING EYES; 1f680 ROCKET; 1f914 THINKING FACE"]),
  ("LATIN CAPITAL LETTER ", [
    "41 A; 42 B; 43 C; 44 D; 45 E; 46 F; 47 G; 48 H; 49 I; 4a J; 4b K; 4c L; 4d M; 4e N; 4f O",
    "50 P; 51 Q; 52 R; 53 S; 54 T; 55 U; 56 V; 57 W; 58 X; 59 Y; 5a Z; c0 A WITH GRAVE",
    "c1 A WITH ACUTE; c2 A WITH CIRCUMFLEX; c3 A WITH TILDE; c4 A WITH DIAERESIS",
    "c5 A WITH RING ABOVE; c6 AE; c7 C WITH CEDILLA; c8 E WITH GRAVE; c9 E WITH ACUTE",
    "ca E WITH CIRCUMFLEX; cb E WITH DIAERESIS; cc I WITH GRAVE; cd I WITH ACUTE",
    "ce I WITH CIRCUMFLEX; cf I WITH DIAERESIS; d0 ETH; d1 N WITH TILDE; d2 O WITH GRAVE",
    "d3 O WITH ACUTE; d4 O WITH CIRCUMFLEX; d5 O WITH TILDE; d6 O WITH DIAERESIS",
    "d8 O WITH STROKE; d9 U WITH GRAVE; da U WITH ACUTE; db U WITH CIRCUMFLEX",
    "dc U WITH DIAERESIS; dd Y WITH ACUTE; de THORN; 100 A WITH MACRON; 102 A WITH BREVE",
    "104 A WITH OGONEK; 106 C WITH ACUTE; 108 C WITH CIRCUMFLEX; 10a C WITH DOT ABOVE",
    "10c C WITH CARON; 10e D WITH CARON; 110 D WITH STROKE; 112 E WITH MACRON; 114 E WITH BREVE",
    "116 E WITH DOT ABOVE; 118 E WITH OGONEK; 11a E WITH CARON; 11c G WITH CIRCUMFLEX",
    "11e G WITH BREVE; 120 G WITH DOT ABOVE; 122 G WITH CEDILLA; 124 H WITH CIRCUMFLEX",
    "126 H WITH STROKE; 128 I WITH TILDE; 12a I WITH MACRON; 12c I WITH BREVE; 12e I WITH OGONEK",
    "130 I WITH DOT ABOVE; 134 J WITH CIRCUMFLEX; 136 K WITH CEDILLA; 139 L WITH ACUTE",
    "13b L WITH CEDILLA; 13d L WITH CARON; 13f L WITH MIDDLE DOT; 141 L WITH STROKE",
    "143 N WITH ACUTE; 145 N WITH CEDILLA; 147 N WITH CARON; 14a ENG; 14c O WITH MACRON",
    "14e O WITH BREVE; 150 O WITH DOUBLE ACUTE; 154 R WITH ACUTE; 156 R WITH CEDILLA",
    "158 R WITH CARON; 15a S WITH ACUTE; 15c S WITH CIRCUMFLEX; 15e S WITH CEDILLA",
    "160 S WITH CARON; 162 T WITH CEDILLA; 164 T WITH CARON; 166 T WITH STROKE; 168 U WITH TILDE",
    "16a U WITH MACRON; 16c U WITH BREVE; 16e U WITH RING ABOVE; 170 U WITH DOUBLE ACUTE",
    "172 U WITH OGONEK; 174 W WITH CIRCUMFLEX; 176 Y WITH CIRCUMFLEX; 178 Y WITH DIAERESIS",
    "179 Z WITH ACUTE; 17b Z WITH DOT ABOVE; 17d Z WITH CARON"]),
  ("LATIN SMALL LETTER ", [
    "61 A; 62 B; 63 C; 64 D; 65 E; 66 F; 67 G; 68 H; 69 I; 6a J; 6b K; 6c L; 6d M; 6e N; 6f O",
    "70 P; 71 Q; 72 R; 73 S; 74 T; 75 U; 76 V; 77 W; 78 X; 79 Y; 7a Z; df SHARP S",
    "e0 A WITH GRAVE; e1 A WITH ACUTE; e2 A WITH CIRCUMFLEX; e3 A WITH TILDE",
    "e4 A WITH DIAERESIS; e5 A WITH RING ABOVE; e6 AE; e7 C WITH CEDILLA; e8 E WITH GRAVE",
    "e9 E WITH ACUTE; ea E WITH CIRCUMFLEX; eb E WITH DIAERESIS; ec I WITH GRAVE",
    "ed I WITH ACUTE; ee I WITH CIRCUMFLEX; ef I WITH DIAERESIS; f0 ETH; f1 N WITH TILDE",
    "f2 O WITH GRAVE; f3 O WITH ACUTE; f4 O WITH CIRCUMFLEX; f5 O WITH TILDE",
    "f6 O WITH DIAERESIS; f8 O WITH STROKE; f9 U WITH GRAVE; fa U WITH ACUTE",
    "fb U WITH CIRCUMFLEX; fc U WITH DIAERESIS; fd Y WITH ACUTE; fe THORN; ff Y WITH DIAERESIS",
    "101 A WITH MACRON; 103 A WITH BREVE; 105 A WITH OGONEK; 107 C WITH ACUTE",
    "109 C WITH CIRCUMFLEX; 10b C WITH DOT ABOVE; 10d C WITH CARON; 10f D WITH CARON",
    "111 D WITH STROKE; 113 E WITH MACRON; 115 E WITH BREVE; 117 E WITH DOT ABOVE",
    "119 E WITH OGONEK; 11b E WITH CARON; 11d G WITH CIRCUMFLEX; 11f G WITH BREVE",
    "121 G WITH DOT ABOVE; 123 G WITH CEDILLA; 125 H WITH CIRCUMFLEX; 127 H WITH STROKE",
    "129 I WITH TILDE; 12b I WITH MACRON; 12d I WITH BREVE; 12f I WITH OGONEK; 131 DOTLESS I",
    "135 J WITH CIRCUMFLEX; 137 K WITH CEDILLA; 138 KRA; 13a L WITH ACUTE; 13c L WITH CEDILLA",
    "13e L WITH CARON; 140 L WITH MIDDLE DOT; 142 L WITH STROKE; 144 N WITH ACUTE",
    "146 N WITH CEDILLA; 148 N WITH CARON; 149 N PRECEDED BY APOSTROPHE; 14b ENG",
    "14d O WITH MACRON; 14f O WITH BREVE; 151 O WITH DOUBLE ACUTE; 155 R WITH ACUTE",
    "157 R WITH CEDILLA; 159 R WITH CARON; 15b S WITH ACUTE; 15d S WITH CIRCUMFLEX",
    "15f S WITH CEDILLA; 161 S WITH CARON; 163 T WITH CEDILLA; 165 T WITH CARON",
    "167 T WITH STROKE; 169 U WITH TILDE; 16b U WITH MACRON; 16d U WITH BREVE",
    "16f U WITH RING ABOVE; 171 U WITH DOUBLE ACUTE; 173 U WITH OGONEK; 175 W WITH CIRCUMFLEX",
    "177 Y WITH CIRCUMFLEX; 17a Z WITH ACUTE; 17c Z WITH DOT ABOVE; 17e Z WITH CARON; 17f LONG S"]),
  ("GREEK CAPITAL LETTER ", [
    "391 ALPHA; 392 BETA; 393 GAMMA; 394 DELTA; 395 EPSILON; 396 ZETA; 397 ETA; 398 THETA",
    "399 IOTA; 39a KAPPA; 39b LAMDA; 39c MU; 39d NU; 39e XI; 39f OMICRON; 3a0 PI; 3a1 RHO",
    "3a3 SIGMA; 3a4 TAU; 3a5 UPSILON; 3a6 PHI; 3a7 CHI; 3a8 PSI; 3a9 OMEGA"]),
  ("GREEK SMALL LETTER ", [
    "3b1 ALPHA; 3b2 BETA; 3b3 GAMMA; 3b4 DELTA; 3b5 EPSILON; 3b6 ZETA; 3b7 ETA; 3b8 THETA",
    "3b9 IOTA; 3ba KAPPA; 3bb LAMDA; 3bc MU; 3bd NU; 3be XI; 3bf OMICRON; 3c0 PI; 3c1 RHO",
    "3c2 FINAL SIGMA; 3c3 SIGMA; 3c4 TAU; 3c5 UPSILON; 3c6 PHI; 3c7 CHI; 3c8 PSI; 3c9 OMEGA"]),
  ("CYRILLIC CAPITAL LETTER ", [
    "410 A; 411 BE; 412 VE; 413 GHE; 414 DE; 415 IE; 416 ZHE; 417 ZE; 418 I; 419 SHORT I; 41a KA",
    "41b EL; 41c EM; 41d EN; 41e O; 41f PE; 420 ER; 421 ES; 422 TE; 423 U; 424 EF; 425 HA",
    "426 TSE; 427 CHE; 428 SHA; 429 SHCHA; 42a HARD SIGN; 42b YERU; 42c SOFT SIGN; 42d E; 42e YU",
    "42f YA"]),
  ("CYRILLIC SMALL LETTER ", [
    "430 A; 431 BE; 432 VE; 433 GHE; 434 DE; 435 IE; 436 ZHE; 437 ZE; 438 I; 439 SHORT I; 43a KA",
    "43b EL; 43c EM; 43d EN; 43e O; 43f PE; 440 ER; 441 ES; 442 TE; 443 U; 444 EF; 445 HA",
    "446 TSE; 447 CHE; 448 SHA; 449 SHCHA; 44a HARD SIGN; 44b YERU; 44c SOFT SIGN; 44d E; 44e YU",
    "44f YA"])]

/-- The names in common use, with the characters. -/
def commonNames : List (String × Char) :=
  nameGroups.flatMap fun (start, rows) => rows.flatMap fun row =>
    (row.toList.splitOn ';').map fun entry =>
      let entry := entry.dropWhile (· == ' ')
      let code := entry.takeWhile (· != ' ')
      (start ++ String.ofList ((entry.dropWhile (· != ' ')).drop 1), Char.ofNat (ofHex code))

/-- Names in letters of any case. -/
instance : CharacterNames where
  named? name := commonNames.lookup (name.map Char.toUpper)

end Scorecard.Text
