/-!
# Character properties by name

A pattern names a set of characters by a Unicode property, or by a property and
one of its values.  Names are compared without regard to case, spaces, hyphens
and underscores, and an initial `is` makes no difference.  The tables hold the
names in that form, long and short.
-/

namespace KeyLayers.Pattern

/-- The properties that a character has or has not. -/
def truths : List String :=
  [ "asciihexdigit", "ahex", "alphabetic", "alpha", "bidicontrol", "bidic",
    "bidimirrored", "bidim", "caseignorable", "ci", "cased", "changeswhencasefolded",
    "cwcf", "changeswhencasemapped", "cwcm", "changeswhenlowercased", "cwl",
    "changeswhentitlecased", "cwt", "changeswhenuppercased", "cwu", "dash",
    "defaultignorablecodepoint", "di", "deprecated", "dep", "diacritic", "dia", "emoji",
    "emojicomponent", "ecomp", "emojimodifier", "emod", "emojimodifierbase", "ebase",
    "emojipresentation", "epres", "extendedpictographic", "extpict", "extender", "ext",
    "graphemebase", "grbase", "graphemeextend", "grext", "graphemelink", "grlink",
    "hexdigit", "hex", "hyphen", "idsbinaryoperator", "idsb", "idstrinaryoperator",
    "idst", "idcontinue", "idc", "idstart", "ids", "ideographic", "ideo", "joincontrol",
    "joinc", "logicalorderexception", "loe", "lowercase", "lower", "math",
    "noncharactercodepoint", "nchar", "otheralphabetic", "oalpha",
    "otherdefaultignorablecodepoint", "odi", "othergraphemeextend", "ogrext",
    "otheridcontinue", "oidc", "otheridstart", "oids", "otherlowercase", "olower",
    "othermath", "omath", "otheruppercase", "oupper", "patternsyntax", "patsyn",
    "patternwhitespace", "patws", "prependedconcatenationmark", "pcm", "quotationmark",
    "qmark", "radical", "regionalindicator", "ri", "sentenceterminal", "sterm",
    "softdotted", "sd", "terminalpunctuation", "term", "unifiedideograph", "uideo",
    "uppercase", "upper", "variationselector", "vs", "whitespace", "wspace", "space",
    "xidcontinue", "xidc", "xidstart", "xids", "idsunaryoperator", "idsu",
    "idcompatmathcontinue", "idcompatmathstart", "modifiercombiningmark", "mcm" ]

/-- The general categories that have characters, and three unions. -/
def categories : List String :=
  [ "c", "other", "cc", "control", "cntrl", "cf", "format", "cn", "unassigned", "co",
    "privateuse", "l", "letter", "lc", "casedletter", "ll", "lowercaseletter", "lm",
    "modifierletter", "lo", "otherletter", "lt", "titlecaseletter", "lu",
    "uppercaseletter", "m", "mark", "combiningmark", "mc", "spacingmark", "me",
    "enclosingmark", "mn", "nonspacingmark", "n", "number", "nd", "decimalnumber", "digit",
    "nl", "letternumber", "no", "othernumber", "p", "punctuation", "punct", "pc",
    "connectorpunctuation", "pd", "dashpunctuation", "pe", "closepunctuation", "pf",
    "finalpunctuation", "pi", "initialpunctuation", "po", "otherpunctuation", "ps",
    "openpunctuation", "s", "symbol", "sc", "currencysymbol", "sk", "modifiersymbol", "sm",
    "mathsymbol", "so", "othersymbol", "z", "separator", "zl", "lineseparator", "zp",
    "paragraphseparator", "zs", "spaceseparator", "any", "assigned", "ascii" ]

/-- The scripts that have characters. -/
def scripts : List String :=
  [ "adlm", "adlam", "aghb", "caucasianalbanian", "ahom", "arab", "arabic", "armi",
    "imperialaramaic", "armn", "armenian", "avst", "avestan", "bali", "balinese", "bamu",
    "bamum", "bass", "bassavah", "batk", "batak", "beng", "bengali", "bhks", "bhaiksuki",
    "bopo", "bopomofo", "brah", "brahmi", "brai", "braille", "bugi", "buginese", "buhd",
    "buhid", "cakm", "chakma", "cans", "canadianaboriginal", "cari", "carian", "cham",
    "cher", "cherokee", "chrs", "chorasmian", "copt", "coptic", "qaac", "cpmn",
    "cyprominoan", "cprt", "cypriot", "cyrl", "cyrillic", "deva", "devanagari", "diak",
    "divesakuru", "dogr", "dogra", "dsrt", "deseret", "dupl", "duployan", "egyp",
    "egyptianhieroglyphs", "elba", "elbasan", "elym", "elymaic", "ethi", "ethiopic",
    "geor", "georgian", "glag", "glagolitic", "gong", "gunjalagondi", "gonm",
    "masaramgondi", "goth", "gothic", "gran", "grantha", "grek", "greek", "gujr",
    "gujarati", "guru", "gurmukhi", "hang", "hangul", "hani", "han", "hano", "hanunoo",
    "hatr", "hatran", "hebr", "hebrew", "hira", "hiragana", "hluw", "anatolianhieroglyphs",
    "hmng", "pahawhhmong", "hmnp", "nyiakengpuachuehmong", "hung", "oldhungarian", "ital",
    "olditalic", "java", "javanese", "kali", "kayahli", "kana", "katakana", "kawi", "khar",
    "kharoshthi", "khmr", "khmer", "khoj", "khojki", "kits", "khitansmallscript", "knda",
    "kannada", "kthi", "kaithi", "lana", "taitham", "laoo", "lao", "latn", "latin", "lepc",
    "lepcha", "limb", "limbu", "lina", "lineara", "linb", "linearb", "lisu", "lyci",
    "lycian", "lydi", "lydian", "mahj", "mahajani", "maka", "makasar", "mand", "mandaic",
    "mani", "manichaean", "marc", "marchen", "medf", "medefaidrin", "mend", "mendekikakui",
    "merc", "meroiticcursive", "mero", "meroitichieroglyphs", "mlym", "malayalam", "modi",
    "mong", "mongolian", "mroo", "mro", "mtei", "meeteimayek", "mult", "multani", "mymr",
    "myanmar", "nagm", "nagmundari", "nand", "nandinagari", "narb", "oldnortharabian",
    "nbat", "nabataean", "newa", "nkoo", "nko", "nshu", "nushu", "ogam", "ogham", "olck",
    "olchiki", "orkh", "oldturkic", "orya", "oriya", "osge", "osage", "osma", "osmanya",
    "ougr", "olduyghur", "palm", "palmyrene", "pauc", "paucinhau", "perm", "oldpermic",
    "phag", "phagspa", "phli", "inscriptionalpahlavi", "phlp", "psalterpahlavi", "phnx",
    "phoenician", "plrd", "miao", "prti", "inscriptionalparthian", "rjng", "rejang",
    "rohg", "hanifirohingya", "runr", "runic", "samr", "samaritan", "sarb",
    "oldsoutharabian", "saur", "saurashtra", "sgnw", "signwriting", "shaw", "shavian",
    "shrd", "sharada", "sidd", "siddham", "sind", "khudawadi", "sinh", "sinhala", "sogd",
    "sogdian", "sogo", "oldsogdian", "sora", "sorasompeng", "soyo", "soyombo", "sund",
    "sundanese", "sylo", "sylotinagri", "syrc", "syriac", "tagb", "tagbanwa", "takr",
    "takri", "tale", "taile", "talu", "newtailue", "taml", "tamil", "tang", "tangut",
    "tavt", "taiviet", "telu", "telugu", "tfng", "tifinagh", "tglg", "tagalog", "thaa",
    "thaana", "thai", "tibt", "tibetan", "tirh", "tirhuta", "tnsa", "tangsa", "toto",
    "ugar", "ugaritic", "vaii", "vai", "vith", "vithkuqi", "wara", "warangciti", "wcho",
    "wancho", "xpeo", "oldpersian", "xsux", "cuneiform", "yezi", "yezidi", "yiii", "yi",
    "zanb", "zanabazarsquare", "zinh", "inherited", "qaai", "zyyy", "common", "gara",
    "garay", "gukh", "gurungkhema", "krai", "kiratrai", "onao", "olonal", "sunu",
    "sunuwar", "todr", "todhri", "tutg", "tulutigalari" ]

/-- The places of a character in a grapheme cluster. -/
def clusterParts : List String :=
  [ "cn", "control", "cr", "ex", "extend", "l", "lf", "lv", "lvt", "pp", "prepend", "ri",
    "regionalindicator", "sm", "spacingmark", "t", "v", "zwj" ]

/-- The places of a character in a word. -/
def wordParts : List String :=
  [ "le", "aletter", "cr", "dq", "doublequote", "extend", "ex", "extendnumlet", "fo",
    "format", "hl", "hebrewletter", "ka", "katakana", "lf", "ml", "midletter", "mn",
    "midnum", "mb", "midnumlet", "nl", "newline", "nu", "numeric", "ri",
    "regionalindicator", "sq", "singlequote", "wsegspace", "zwj" ]

/-- The places of a character in a sentence. -/
def sentenceParts : List String :=
  [ "at", "aterm", "cr", "cl", "close", "ex", "extend", "fo", "format", "lf", "lo",
    "lower", "nu", "numeric", "le", "oletter", "sc", "scontinue", "st", "sterm", "se",
    "sep", "sp", "up", "upper" ]

/-- The versions of the standard in which a character was assigned. -/
def ages : List String :=
  [ "1.1", "v11", "2.0", "v20", "2.1", "v21", "3.0", "v30", "3.1", "v31", "3.2", "v32",
    "4.0", "v40", "4.1", "v41", "5.0", "v50", "5.1", "v51", "5.2", "v52", "6.0", "v60",
    "6.1", "v61", "6.2", "v62", "6.3", "v63", "7.0", "v70", "8.0", "v80", "9.0", "v90",
    "10.0", "v100", "11.0", "v110", "12.0", "v120", "12.1", "v121", "13.0", "v130", "14.0",
    "v140", "15.0", "v150", "15.1", "v151", "16.0", "v160" ]

/-- Whether a name begins with `is`. -/
def startsWithIs : List Char → Bool
  | 'i' :: 's' :: _ | 'i' :: 'S' :: _ | 'I' :: 's' :: _ | 'I' :: 'S' :: _ => true
  | _ => false

/--
The form in which names are compared.

The name `isc` belongs to a property of its own, and loses nothing.
-/
def propertyName (name : List Char) : String :=
  let rest := if startsWithIs name then name.drop 2 else name
  let kept := rest.filter fun c =>
    c.toNat < 128 && c != ' ' && c != '-' && c != '_'
  let text := String.ofList (kept.map Char.toLower)
  if startsWithIs name && text == "c" then "isc" else text

/-- Whether a name on its own stands for a set of characters. -/
def isProperty (name : List Char) : Bool :=
  let name := propertyName name
  truths.contains name || categories.contains name || scripts.contains name

/-- The names of the values of a property. -/
def propertyValues (name : String) : List String :=
  match name with
  | "gc" | "generalcategory" => categories
  | "sc" | "script" | "scx" | "scriptextensions" => scripts
  | "age" => ages
  | "gcb" | "graphemeclusterbreak" => clusterParts
  | "wb" | "wordbreak" => wordParts
  | "sb" | "sentencebreak" => sentenceParts
  | _ => []

/-- Whether a property has a value with the given name. -/
def isPropertyValue (name value : List Char) : Bool :=
  (propertyValues (propertyName name)).contains (propertyName value)

/-- The parts of a text before and after the first occurrence of a word. -/
def splitAt? (word : List Char) : List Char → Option (List Char × List Char)
  | [] => none
  | c :: rest =>
      if word.isPrefixOf (c :: rest) then some ([], (c :: rest).drop word.length)
      else (splitAt? word rest).map fun (before, after) => (c :: before, after)

/-- Whether the text between the braces names a set of characters. -/
def isQuery (text : List Char) : Bool :=
  match splitAt? ['!', '='] text <|> splitAt? [':'] text <|> splitAt? ['='] text with
  | some (name, value) => isPropertyValue name value
  | none => isProperty text

end KeyLayers.Pattern
