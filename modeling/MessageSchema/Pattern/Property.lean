import MessageSchema.Text.Cut

/-!
# Names of character properties

A character class may name a property of characters, by itself or with a value. Names are compared
without case, blanks, hyphens and underscores, and a leading `is` does not count. The tables follow
version 16 of the character database; surrogates, which are no characters, have no name here.

## Main definitions

* `Pattern.bareName`: a name as it is compared.
* `Pattern.isProperty`: whether a name by itself stands for a set of characters.
* `Pattern.isPropertyValue`: whether a property with a value stands for one.
-/

namespace MessageSchema.Pattern

/-- Properties that a character has or has not. -/
def truthProperties : List String :=
  ["ahex", "alpha", "alphabetic", "asciihexdigit", "bidic", "bidicontrol", "bidim",
   "bidimirrored", "cased", "caseignorable", "changeswhencasefolded", "changeswhencasemapped",
   "changeswhenlowercased", "changeswhentitlecased", "changeswhenuppercased", "ci", "cwcf",
   "cwcm", "cwl", "cwt", "cwu", "dash", "defaultignorablecodepoint", "dep", "deprecated",
   "di", "dia", "diacritic", "ebase", "ecomp", "emod", "emoji", "emojicomponent",
   "emojimodifier", "emojimodifierbase", "emojipresentation", "epres", "ext",
   "extendedpictographic", "extender", "extpict", "graphemebase", "graphemeextend",
   "graphemelink", "grbase", "grext", "grlink", "hex", "hexdigit", "hyphen", "idc",
   "idcompatmathcontinue", "idcompatmathstart", "idcontinue", "ideo", "ideographic", "ids",
   "idsb", "idsbinaryoperator", "idst", "idstart", "idstrinaryoperator", "idsu",
   "idsunaryoperator", "joinc", "joincontrol", "loe", "logicalorderexception", "lower",
   "lowercase", "math", "mcm", "modifiercombiningmark", "nchar", "noncharactercodepoint",
   "oalpha", "odi", "ogrext", "oidc", "oids", "olower", "omath", "otheralphabetic",
   "otherdefaultignorablecodepoint", "othergraphemeextend", "otheridcontinue", "otheridstart",
   "otherlowercase", "othermath", "otheruppercase", "oupper", "patsyn", "patternsyntax",
   "patternwhitespace", "patws", "pcm", "prependedconcatenationmark", "qmark",
   "quotationmark", "radical", "regionalindicator", "ri", "sd", "sentenceterminal",
   "softdotted", "space", "sterm", "term", "terminalpunctuation", "uideo", "unifiedideograph",
   "upper", "uppercase", "variationselector", "vs", "whitespace", "wspace", "xidc",
   "xidcontinue", "xids", "xidstart"]

/-- General categories. -/
def categories : List String :=
  ["any", "ascii", "assigned", "c", "casedletter", "cc", "cf", "closepunctuation", "cn",
   "cntrl", "co", "combiningmark", "connectorpunctuation", "control", "currencysymbol",
   "dashpunctuation", "decimalnumber", "digit", "enclosingmark", "finalpunctuation", "format",
   "initialpunctuation", "l", "lc", "letter", "letternumber", "lineseparator", "ll", "lm",
   "lo", "lowercaseletter", "lt", "lu", "m", "mark", "mathsymbol", "mc", "me", "mn",
   "modifierletter", "modifiersymbol", "n", "nd", "nl", "no", "nonspacingmark", "number",
   "openpunctuation", "other", "otherletter", "othernumber", "otherpunctuation",
   "othersymbol", "p", "paragraphseparator", "pc", "pd", "pe", "pf", "pi", "po", "privateuse",
   "ps", "punct", "punctuation", "s", "sc", "separator", "sk", "sm", "so", "spaceseparator",
   "spacingmark", "symbol", "titlecaseletter", "unassigned", "uppercaseletter", "z", "zl",
   "zp", "zs"]

/-- Scripts. -/
def scripts : List String :=
  ["adlam", "adlm", "aghb", "ahom", "anatolianhieroglyphs", "arab", "arabic", "armenian",
   "armi", "armn", "avestan", "avst", "bali", "balinese", "bamu", "bamum", "bass", "bassavah",
   "batak", "batk", "beng", "bengali", "bhaiksuki", "bhks", "bopo", "bopomofo", "brah",
   "brahmi", "brai", "braille", "bugi", "buginese", "buhd", "buhid", "cakm",
   "canadianaboriginal", "cans", "cari", "carian", "caucasianalbanian", "chakma", "cham",
   "cher", "cherokee", "chorasmian", "chrs", "common", "copt", "coptic", "cpmn", "cprt",
   "cuneiform", "cypriot", "cyprominoan", "cyrillic", "cyrl", "deseret", "deva", "devanagari",
   "diak", "divesakuru", "dogr", "dogra", "dsrt", "dupl", "duployan", "egyp",
   "egyptianhieroglyphs", "elba", "elbasan", "elym", "elymaic", "ethi", "ethiopic", "gara",
   "garay", "geor", "georgian", "glag", "glagolitic", "gong", "gonm", "goth", "gothic",
   "gran", "grantha", "greek", "grek", "gujarati", "gujr", "gukh", "gunjalagondi", "gurmukhi",
   "guru", "gurungkhema", "han", "hang", "hangul", "hani", "hanifirohingya", "hano",
   "hanunoo", "hatr", "hatran", "hebr", "hebrew", "hira", "hiragana", "hluw", "hmng", "hmnp",
   "hung", "imperialaramaic", "inherited", "inscriptionalpahlavi", "inscriptionalparthian",
   "ital", "java", "javanese", "kaithi", "kali", "kana", "kannada", "katakana", "kawi",
   "kayahli", "khar", "kharoshthi", "khitansmallscript", "khmer", "khmr", "khoj", "khojki",
   "khudawadi", "kiratrai", "kits", "knda", "krai", "kthi", "lana", "lao", "laoo", "latin",
   "latn", "lepc", "lepcha", "limb", "limbu", "lina", "linb", "lineara", "linearb", "lisu",
   "lyci", "lycian", "lydi", "lydian", "mahajani", "mahj", "maka", "makasar", "malayalam",
   "mand", "mandaic", "mani", "manichaean", "marc", "marchen", "masaramgondi", "medefaidrin",
   "medf", "meeteimayek", "mend", "mendekikakui", "merc", "mero", "meroiticcursive",
   "meroitichieroglyphs", "miao", "mlym", "modi", "mong", "mongolian", "mro", "mroo", "mtei",
   "mult", "multani", "myanmar", "mymr", "nabataean", "nagm", "nagmundari", "nand",
   "nandinagari", "narb", "nbat", "newa", "newtailue", "nko", "nkoo", "nshu", "nushu",
   "nyiakengpuachuehmong", "ogam", "ogham", "olchiki", "olck", "oldhungarian", "olditalic",
   "oldnortharabian", "oldpermic", "oldpersian", "oldsogdian", "oldsoutharabian", "oldturkic",
   "olduyghur", "olonal", "onao", "oriya", "orkh", "orya", "osage", "osge", "osma", "osmanya",
   "ougr", "pahawhhmong", "palm", "palmyrene", "pauc", "paucinhau", "perm", "phag", "phagspa",
   "phli", "phlp", "phnx", "phoenician", "plrd", "prti", "psalterpahlavi", "qaac", "qaai",
   "rejang", "rjng", "rohg", "runic", "runr", "samaritan", "samr", "sarb", "saur",
   "saurashtra", "sgnw", "sharada", "shavian", "shaw", "shrd", "sidd", "siddham",
   "signwriting", "sind", "sinh", "sinhala", "sogd", "sogdian", "sogo", "sora", "sorasompeng",
   "soyo", "soyombo", "sund", "sundanese", "sunu", "sunuwar", "sylo", "sylotinagri", "syrc",
   "syriac", "tagalog", "tagb", "tagbanwa", "taile", "taitham", "taiviet", "takr", "takri",
   "tale", "talu", "tamil", "taml", "tang", "tangsa", "tangut", "tavt", "telu", "telugu",
   "tfng", "tglg", "thaa", "thaana", "thai", "tibetan", "tibt", "tifinagh", "tirh", "tirhuta",
   "tnsa", "todhri", "todr", "toto", "tulutigalari", "tutg", "ugar", "ugaritic", "vai",
   "vaii", "vith", "vithkuqi", "wancho", "wara", "warangciti", "wcho", "xpeo", "xsux", "yezi",
   "yezidi", "yi", "yiii", "zanabazarsquare", "zanb", "zinh", "zyyy"]

/-- Versions of the character database. -/
def ages : List String :=
  ["1.1", "v11", "2.0", "v20", "2.1", "v21", "3.0", "v30", "3.1", "v31", "3.2", "v32", "4.0",
   "v40", "4.1", "v41", "5.0", "v50", "5.1", "v51", "5.2", "v52", "6.0", "v60", "6.1", "v61",
   "6.2", "v62", "6.3", "v63", "7.0", "v70", "8.0", "v80", "9.0", "v90", "10.0", "v100",
   "11.0", "v110", "12.0", "v120", "12.1", "v121", "13.0", "v130", "14.0", "v140", "15.0",
   "v150", "15.1", "v151", "16.0", "v160"]

/-- Classes of the grapheme cluster rules. -/
def graphemeBreaks : List String :=
  ["cn", "control", "cr", "ex", "extend", "l", "lf", "lv", "lvt", "pp", "prepend", "ri",
   "regionalindicator", "sm", "spacingmark", "t", "v", "zwj"]

/-- Classes of the word rules. -/
def wordBreaks : List String :=
  ["cr", "dq", "doublequote", "ex", "extendnumlet", "extend", "fo", "format", "hl",
   "hebrewletter", "ka", "katakana", "le", "aletter", "lf", "mb", "midnumlet", "ml",
   "midletter", "mn", "midnum", "nl", "newline", "nu", "numeric", "ri", "regionalindicator",
   "sq", "singlequote", "wsegspace", "zwj"]

/-- Classes of the sentence rules. -/
def sentenceBreaks : List String :=
  ["at", "aterm", "cl", "close", "cr", "ex", "extend", "fo", "format", "le", "oletter", "lf",
   "lo", "lower", "nu", "numeric", "sc", "scontinue", "se", "sep", "sp", "st", "sterm", "up",
   "upper"]

/-- A name as it is compared. What is left of `isc` keeps its first two letters, which are no mark
there. -/
def bareName (name : List Char) : String :=
  let marked := match name with
    | i :: s :: _ => i.toLower == 'i' && s.toLower == 's'
    | _ => false
  let kept := ((if marked then name.drop 2 else name).filter fun c =>
    c.toNat < 0x80 && c != ' ' && c != '_' && c != '-').map Char.toLower
  if marked && kept == ['c'] then "isc" else String.ofList kept

/-- Whether a name by itself stands for a set of characters: a property, a general category or a
script. -/
def isProperty (name : List Char) : Bool :=
  let bare := bareName name
  truthProperties.contains bare || categories.contains bare || scripts.contains bare

/-- The values that a property may be given. -/
def valuesOf (property : String) : List String :=
  match property with
  | "gc" | "generalcategory" => categories
  | "sc" | "script" | "scx" | "scriptextensions" => scripts
  | "age" => ages
  | "gcb" | "graphemeclusterbreak" => graphemeBreaks
  | "wb" | "wordbreak" => wordBreaks
  | "sb" | "sentencebreak" => sentenceBreaks
  | _ => []

/-- Whether a property with a value stands for a set of characters. -/
def isPropertyValue (property value : List Char) : Bool :=
  (valuesOf (bareName property)).contains (bareName value)

end MessageSchema.Pattern
