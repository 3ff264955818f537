import JsonSchema.Text.Hexadecimal
import JsonSchema.Text.InversionList

/-!
# Names of characters

Listed are the names of the characters of Latin-1, with those of controls, and of Greek and Cyrillic
letters, common punctuation, signs of currencies and arrows. The names of ideographs and of Hangul
syllables follow from their codes. All are those of version 14 of the Unicode character database; any
other character has no name here.
-/

namespace JsonSchema.Text

/-- Characters in a row from `first` on, whose names are `stem` with one of the endings. -/
structure NameRun where
  first : Nat
  stem : String
  endings : List String

def nameRuns : List NameRun := [
  ⟨0x20, "", ["SPACE", "EXCLAMATION MARK", "QUOTATION MARK", "NUMBER SIGN", "DOLLAR SIGN",
    "PERCENT SIGN", "AMPERSAND", "APOSTROPHE", "LEFT PARENTHESIS", "RIGHT PARENTHESIS", "ASTERISK",
    "PLUS SIGN", "COMMA", "HYPHEN-MINUS", "FULL STOP", "SOLIDUS"]⟩,
  ⟨0x30, "DIGIT ", ["ZERO", "ONE", "TWO", "THREE", "FOUR", "FIVE", "SIX", "SEVEN", "EIGHT", "NINE"]⟩,
  ⟨0x3a, "", ["COLON", "SEMICOLON", "LESS-THAN SIGN", "EQUALS SIGN", "GREATER-THAN SIGN",
    "QUESTION MARK", "COMMERCIAL AT"]⟩,
  ⟨0x41, "LATIN CAPITAL LETTER ", ["A", "B", "C", "D", "E", "F", "G", "H", "I", "J", "K", "L", "M",
    "N", "O", "P", "Q", "R", "S", "T", "U", "V", "W", "X", "Y", "Z"]⟩,
  ⟨0x5b, "", ["LEFT SQUARE BRACKET", "REVERSE SOLIDUS", "RIGHT SQUARE BRACKET", "CIRCUMFLEX ACCENT",
    "LOW LINE", "GRAVE ACCENT"]⟩,
  ⟨0x61, "LATIN SMALL LETTER ", ["A", "B", "C", "D", "E", "F", "G", "H", "I", "J", "K", "L", "M",
    "N", "O", "P", "Q", "R", "S", "T", "U", "V", "W", "X", "Y", "Z"]⟩,
  ⟨0x7b, "", ["LEFT CURLY BRACKET", "VERTICAL LINE", "RIGHT CURLY BRACKET", "TILDE"]⟩,
  ⟨0xa0, "", ["NO-BREAK SPACE", "INVERTED EXCLAMATION MARK", "CENT SIGN", "POUND SIGN",
    "CURRENCY SIGN", "YEN SIGN", "BROKEN BAR", "SECTION SIGN", "DIAERESIS", "COPYRIGHT SIGN",
    "FEMININE ORDINAL INDICATOR", "LEFT-POINTING DOUBLE ANGLE QUOTATION MARK", "NOT SIGN",
    "SOFT HYPHEN", "REGISTERED SIGN", "MACRON", "DEGREE SIGN", "PLUS-MINUS SIGN", "SUPERSCRIPT TWO",
    "SUPERSCRIPT THREE", "ACUTE ACCENT", "MICRO SIGN", "PILCROW SIGN", "MIDDLE DOT", "CEDILLA",
    "SUPERSCRIPT ONE", "MASCULINE ORDINAL INDICATOR", "RIGHT-POINTING DOUBLE ANGLE QUOTATION MARK",
    "VULGAR FRACTION ONE QUARTER", "VULGAR FRACTION ONE HALF", "VULGAR FRACTION THREE QUARTERS",
    "INVERTED QUESTION MARK"]⟩,
  ⟨0xc0, "LATIN CAPITAL LETTER ", ["A WITH GRAVE", "A WITH ACUTE", "A WITH CIRCUMFLEX",
    "A WITH TILDE", "A WITH DIAERESIS", "A WITH RING ABOVE", "AE", "C WITH CEDILLA", "E WITH GRAVE",
    "E WITH ACUTE", "E WITH CIRCUMFLEX", "E WITH DIAERESIS", "I WITH GRAVE", "I WITH ACUTE",
    "I WITH CIRCUMFLEX", "I WITH DIAERESIS", "ETH", "N WITH TILDE", "O WITH GRAVE", "O WITH ACUTE",
    "O WITH CIRCUMFLEX", "O WITH TILDE", "O WITH DIAERESIS"]⟩,
  ⟨0xd7, "", ["MULTIPLICATION SIGN"]⟩,
  ⟨0xd8, "LATIN CAPITAL LETTER ", ["O WITH STROKE", "U WITH GRAVE", "U WITH ACUTE",
    "U WITH CIRCUMFLEX", "U WITH DIAERESIS", "Y WITH ACUTE", "THORN"]⟩,
  ⟨0xdf, "LATIN SMALL LETTER ", ["SHARP S", "A WITH GRAVE", "A WITH ACUTE", "A WITH CIRCUMFLEX",
    "A WITH TILDE", "A WITH DIAERESIS", "A WITH RING ABOVE", "AE", "C WITH CEDILLA", "E WITH GRAVE",
    "E WITH ACUTE", "E WITH CIRCUMFLEX", "E WITH DIAERESIS", "I WITH GRAVE", "I WITH ACUTE",
    "I WITH CIRCUMFLEX", "I WITH DIAERESIS", "ETH", "N WITH TILDE", "O WITH GRAVE", "O WITH ACUTE",
    "O WITH CIRCUMFLEX", "O WITH TILDE", "O WITH DIAERESIS"]⟩,
  ⟨0xf7, "", ["DIVISION SIGN"]⟩,
  ⟨0xf8, "LATIN SMALL LETTER ", ["O WITH STROKE", "U WITH GRAVE", "U WITH ACUTE",
    "U WITH CIRCUMFLEX", "U WITH DIAERESIS", "Y WITH ACUTE", "THORN", "Y WITH DIAERESIS"]⟩,
  ⟨0x386, "GREEK CAPITAL LETTER ", ["ALPHA WITH TONOS"]⟩,
  ⟨0x387, "", ["GREEK ANO TELEIA"]⟩,
  ⟨0x388, "GREEK CAPITAL LETTER ", ["EPSILON WITH TONOS", "ETA WITH TONOS", "IOTA WITH TONOS"]⟩,
  ⟨0x38c, "GREEK CAPITAL LETTER ", ["OMICRON WITH TONOS"]⟩,
  ⟨0x38e, "GREEK CAPITAL LETTER ", ["UPSILON WITH TONOS", "OMEGA WITH TONOS"]⟩,
  ⟨0x390, "GREEK SMALL LETTER ", ["IOTA WITH DIALYTIKA AND TONOS"]⟩,
  ⟨0x391, "GREEK CAPITAL LETTER ", ["ALPHA", "BETA", "GAMMA", "DELTA", "EPSILON", "ZETA", "ETA",
    "THETA", "IOTA", "KAPPA", "LAMDA", "MU", "NU", "XI", "OMICRON", "PI", "RHO"]⟩,
  ⟨0x3a3, "GREEK CAPITAL LETTER ", ["SIGMA", "TAU", "UPSILON", "PHI", "CHI", "PSI", "OMEGA",
    "IOTA WITH DIALYTIKA", "UPSILON WITH DIALYTIKA"]⟩,
  ⟨0x3ac, "GREEK SMALL LETTER ", ["ALPHA WITH TONOS", "EPSILON WITH TONOS", "ETA WITH TONOS",
    "IOTA WITH TONOS", "UPSILON WITH DIALYTIKA AND TONOS", "ALPHA", "BETA", "GAMMA", "DELTA",
    "EPSILON", "ZETA", "ETA", "THETA", "IOTA", "KAPPA", "LAMDA", "MU", "NU", "XI", "OMICRON", "PI",
    "RHO", "FINAL SIGMA", "SIGMA", "TAU", "UPSILON", "PHI", "CHI", "PSI", "OMEGA",
    "IOTA WITH DIALYTIKA", "UPSILON WITH DIALYTIKA", "OMICRON WITH TONOS", "UPSILON WITH TONOS",
    "OMEGA WITH TONOS"]⟩,
  ⟨0x401, "CYRILLIC CAPITAL LETTER ", ["IO", "DJE", "GJE", "UKRAINIAN IE", "DZE",
    "BYELORUSSIAN-UKRAINIAN I", "YI", "JE", "LJE", "NJE", "TSHE", "KJE", "I WITH GRAVE", "SHORT U",
    "DZHE", "A", "BE", "VE", "GHE", "DE", "IE", "ZHE", "ZE", "I", "SHORT I", "KA", "EL", "EM", "EN",
    "O", "PE", "ER", "ES", "TE", "U", "EF", "HA", "TSE", "CHE", "SHA", "SHCHA", "HARD SIGN", "YERU",
    "SOFT SIGN", "E", "YU", "YA"]⟩,
  ⟨0x430, "CYRILLIC SMALL LETTER ", ["A", "BE", "VE", "GHE", "DE", "IE", "ZHE", "ZE", "I",
    "SHORT I", "KA", "EL", "EM", "EN", "O", "PE", "ER", "ES", "TE", "U", "EF", "HA", "TSE", "CHE",
    "SHA", "SHCHA", "HARD SIGN", "YERU", "SOFT SIGN", "E", "YU", "YA", "IE WITH GRAVE", "IO", "DJE",
    "GJE", "UKRAINIAN IE", "DZE", "BYELORUSSIAN-UKRAINIAN I", "YI", "JE", "LJE", "NJE", "TSHE",
    "KJE", "I WITH GRAVE", "SHORT U", "DZHE"]⟩,
  ⟨0x2010, "", ["HYPHEN", "NON-BREAKING HYPHEN", "FIGURE DASH", "EN DASH", "EM DASH",
    "HORIZONTAL BAR", "DOUBLE VERTICAL LINE", "DOUBLE LOW LINE", "LEFT SINGLE QUOTATION MARK",
    "RIGHT SINGLE QUOTATION MARK", "SINGLE LOW-9 QUOTATION MARK",
    "SINGLE HIGH-REVERSED-9 QUOTATION MARK", "LEFT DOUBLE QUOTATION MARK",
    "RIGHT DOUBLE QUOTATION MARK", "DOUBLE LOW-9 QUOTATION MARK",
    "DOUBLE HIGH-REVERSED-9 QUOTATION MARK", "DAGGER", "DOUBLE DAGGER", "BULLET",
    "TRIANGULAR BULLET", "ONE DOT LEADER", "TWO DOT LEADER", "HORIZONTAL ELLIPSIS",
    "HYPHENATION POINT"]⟩,
  ⟨0x2030, "", ["PER MILLE SIGN", "PER TEN THOUSAND SIGN", "PRIME", "DOUBLE PRIME", "TRIPLE PRIME",
    "REVERSED PRIME", "REVERSED DOUBLE PRIME", "REVERSED TRIPLE PRIME", "CARET",
    "SINGLE LEFT-POINTING ANGLE QUOTATION MARK", "SINGLE RIGHT-POINTING ANGLE QUOTATION MARK",
    "REFERENCE MARK", "DOUBLE EXCLAMATION MARK", "INTERROBANG", "OVERLINE", "UNDERTIE",
    "CHARACTER TIE", "CARET INSERTION POINT", "ASTERISM", "HYPHEN BULLET", "FRACTION SLASH",
    "LEFT SQUARE BRACKET WITH QUILL", "RIGHT SQUARE BRACKET WITH QUILL", "DOUBLE QUESTION MARK",
    "QUESTION EXCLAMATION MARK", "EXCLAMATION QUESTION MARK", "TIRONIAN SIGN ET",
    "REVERSED PILCROW SIGN", "BLACK LEFTWARDS BULLET", "BLACK RIGHTWARDS BULLET", "LOW ASTERISK",
    "REVERSED SEMICOLON", "CLOSE UP", "TWO ASTERISKS ALIGNED VERTICALLY", "COMMERCIAL MINUS SIGN",
    "SWUNG DASH", "INVERTED UNDERTIE", "FLOWER PUNCTUATION MARK", "THREE DOT PUNCTUATION",
    "QUADRUPLE PRIME", "FOUR DOT PUNCTUATION", "FIVE DOT PUNCTUATION", "TWO DOT PUNCTUATION",
    "FOUR DOT MARK", "DOTTED CROSS", "TRICOLON", "VERTICAL FOUR DOTS"]⟩,
  ⟨0x20a0, "", ["EURO-CURRENCY SIGN", "COLON SIGN", "CRUZEIRO SIGN", "FRENCH FRANC SIGN",
    "LIRA SIGN", "MILL SIGN", "NAIRA SIGN", "PESETA SIGN", "RUPEE SIGN", "WON SIGN",
    "NEW SHEQEL SIGN", "DONG SIGN", "EURO SIGN", "KIP SIGN", "TUGRIK SIGN", "DRACHMA SIGN",
    "GERMAN PENNY SIGN", "PESO SIGN", "GUARANI SIGN", "AUSTRAL SIGN", "HRYVNIA SIGN", "CEDI SIGN",
    "LIVRE TOURNOIS SIGN", "SPESMILO SIGN", "TENGE SIGN", "INDIAN RUPEE SIGN", "TURKISH LIRA SIGN",
    "NORDIC MARK SIGN", "MANAT SIGN", "RUBLE SIGN", "LARI SIGN", "BITCOIN SIGN", "SOM SIGN"]⟩,
  ⟨0x2190, "", ["LEFTWARDS ARROW", "UPWARDS ARROW", "RIGHTWARDS ARROW", "DOWNWARDS ARROW",
    "LEFT RIGHT ARROW", "UP DOWN ARROW", "NORTH WEST ARROW", "NORTH EAST ARROW", "SOUTH EAST ARROW",
    "SOUTH WEST ARROW"]⟩]

def aliases : List (Nat × List String) := [
  (0x0, ["NULL", "NUL"]), (0x1, ["START OF HEADING", "SOH"]), (0x2, ["START OF TEXT", "STX"]),
  (0x3, ["END OF TEXT", "ETX"]), (0x4, ["END OF TRANSMISSION", "EOT"]), (0x5, ["ENQUIRY", "ENQ"]),
  (0x6, ["ACKNOWLEDGE", "ACK"]), (0x7, ["ALERT", "BEL"]), (0x8, ["BACKSPACE", "BS"]),
  (0x9, ["CHARACTER TABULATION", "HORIZONTAL TABULATION", "HT", "TAB"]), (0xa, ["LINE FEED",
  "NEW LINE", "END OF LINE", "LF", "NL", "EOL"]), (0xb, ["LINE TABULATION", "VERTICAL TABULATION",
  "VT"]), (0xc, ["FORM FEED", "FF"]), (0xd, ["CARRIAGE RETURN", "CR"]), (0xe, ["SHIFT OUT",
  "LOCKING-SHIFT ONE", "SO"]), (0xf, ["SHIFT IN", "LOCKING-SHIFT ZERO", "SI"]),
  (0x10, ["DATA LINK ESCAPE", "DLE"]), (0x11, ["DEVICE CONTROL ONE", "DC1"]),
  (0x12, ["DEVICE CONTROL TWO", "DC2"]), (0x13, ["DEVICE CONTROL THREE", "DC3"]),
  (0x14, ["DEVICE CONTROL FOUR", "DC4"]), (0x15, ["NEGATIVE ACKNOWLEDGE", "NAK"]),
  (0x16, ["SYNCHRONOUS IDLE", "SYN"]), (0x17, ["END OF TRANSMISSION BLOCK", "ETB"]),
  (0x18, ["CANCEL", "CAN"]), (0x19, ["END OF MEDIUM", "EOM"]), (0x1a, ["SUBSTITUTE", "SUB"]),
  (0x1b, ["ESCAPE", "ESC"]), (0x1c, ["INFORMATION SEPARATOR FOUR", "FILE SEPARATOR", "FS"]),
  (0x1d, ["INFORMATION SEPARATOR THREE", "GROUP SEPARATOR", "GS"]),
  (0x1e, ["INFORMATION SEPARATOR TWO", "RECORD SEPARATOR", "RS"]),
  (0x1f, ["INFORMATION SEPARATOR ONE", "UNIT SEPARATOR", "US"]), (0x20, ["SP"]), (0x7f, ["DELETE",
  "DEL"]), (0x80, ["PADDING CHARACTER", "PAD"]), (0x81, ["HIGH OCTET PRESET", "HOP"]),
  (0x82, ["BREAK PERMITTED HERE", "BPH"]), (0x83, ["NO BREAK HERE", "NBH"]), (0x84, ["INDEX",
  "IND"]), (0x85, ["NEXT LINE", "NEL"]), (0x86, ["START OF SELECTED AREA", "SSA"]),
  (0x87, ["END OF SELECTED AREA", "ESA"]), (0x88, ["CHARACTER TABULATION SET",
  "HORIZONTAL TABULATION SET", "HTS"]), (0x89, ["CHARACTER TABULATION WITH JUSTIFICATION",
  "HORIZONTAL TABULATION WITH JUSTIFICATION", "HTJ"]), (0x8a, ["LINE TABULATION SET",
  "VERTICAL TABULATION SET", "VTS"]), (0x8b, ["PARTIAL LINE FORWARD", "PARTIAL LINE DOWN", "PLD"]),
  (0x8c, ["PARTIAL LINE BACKWARD", "PARTIAL LINE UP", "PLU"]), (0x8d, ["REVERSE LINE FEED",
  "REVERSE INDEX", "RI"]), (0x8e, ["SINGLE SHIFT TWO", "SINGLE-SHIFT-2", "SS2"]),
  (0x8f, ["SINGLE SHIFT THREE", "SINGLE-SHIFT-3", "SS3"]), (0x90, ["DEVICE CONTROL STRING", "DCS"]),
  (0x91, ["PRIVATE USE ONE", "PRIVATE USE-1", "PU1"]), (0x92, ["PRIVATE USE TWO", "PRIVATE USE-2",
  "PU2"]), (0x93, ["SET TRANSMIT STATE", "STS"]), (0x94, ["CANCEL CHARACTER", "CCH"]),
  (0x95, ["MESSAGE WAITING", "MW"]), (0x96, ["START OF GUARDED AREA", "START OF PROTECTED AREA",
  "SPA"]), (0x97, ["END OF GUARDED AREA", "END OF PROTECTED AREA", "EPA"]),
  (0x98, ["START OF STRING", "SOS"]), (0x99, ["SINGLE GRAPHIC CHARACTER INTRODUCER", "SGC"]),
  (0x9a, ["SINGLE CHARACTER INTRODUCER", "SCI"]), (0x9b, ["CONTROL SEQUENCE INTRODUCER", "CSI"]),
  (0x9c, ["STRING TERMINATOR", "ST"]), (0x9d, ["OPERATING SYSTEM COMMAND", "OSC"]),
  (0x9e, ["PRIVACY MESSAGE", "PM"]), (0x9f, ["APPLICATION PROGRAM COMMAND", "APC"]),
  (0xa0, ["NBSP"]), (0xad, ["SHY"])]

def ideographs : InversionList where
  changes := #[
    0x3400, 0x4dc0, 0x4e00, 0xa000, 0x20000, 0x2a6e0, 0x2a700, 0x2b739, 0x2b740, 0x2b81e, 0x2b820,
    0x2cea2, 0x2ceb0, 0x2ebe1, 0x30000, 0x3134b]

/-- The ideograph of a name, which ends in a numeral of four or five capital digits. -/
def ideograph? (name : String) : Option Nat := do
  let numeral ← "CJK UNIFIED IDEOGRAPH-".toList.isPrefixOf? name.toList
  let digits ← numeral.mapM fun c => if c.isLower then none else hexValue? c
  let code := digits.foldl (fun n digit => 16 * n + digit) 0
  if (digits.length = 4 || digits.length = 5) && ideographs.contains code then some code else none

def initials : List String := [
  "G", "GG", "N", "D", "DD", "R", "M", "B", "BB", "S", "SS", "", "J", "JJ", "C", "K", "T", "P", "H"]

def medials : List String := [
  "A", "AE", "YA", "YAE", "EO", "E", "YEO", "YE", "O", "WA", "WAE", "OE", "YO", "U", "WEO", "WE",
  "WI", "YU", "EU", "YI", "I"]

def finals : List String := [
  "", "G", "GG", "GS", "N", "NJ", "NH", "D", "L", "LG", "LM", "LB", "LS", "LT", "LP", "LH", "M", "B",
  "BS", "S", "SS", "NG", "J", "C", "K", "T", "P", "H"]

def syllable? (name : String) : Option Nat :=
  initials.zipIdx.findSome? fun (first, i) =>
    medials.zipIdx.findSome? fun (second, k) =>
      (finals.findIdx? fun last => "HANGUL SYLLABLE " ++ first ++ second ++ last = name).map fun l =>
        0xac00 + (21 * i + k) * 28 + l

/-- The character of a name. Case counts only in the names that follow from codes. -/
def codeOfName? (name : String) : Option Nat :=
  let listed := name.toUpper
  let ofRun (run : NameRun) :=
    (run.endings.findIdx? (run.stem ++ · = listed)).map (run.first + ·)
  (ideograph? name).or <| (syllable? name).or <| (nameRuns.findSome? ofRun).or <|
    (aliases.find? (·.2.contains listed)).map (·.1)

end JsonSchema.Text
