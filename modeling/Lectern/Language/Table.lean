import Lectern.Text.Basic

/-!
# Language codes

The languages with a two-letter code, and the bibliographic three-letter codes that differ from
the terminological ones. All codes are in lower case. Which languages there are is up to a
registry, so that nothing else depends on the table.
-/

namespace Lectern

/-- A language: its two-letter code, its three-letter code and its English name. -/
structure Language where
  part1 : Text
  part3 : Text
  name : Text
  deriving DecidableEq

namespace Language

/-- The languages with a two-letter code. -/
def table : List Language := [
  ⟨"aa", "aar", "Afar"⟩, ⟨"ab", "abk", "Abkhazian"⟩, ⟨"ae", "ave", "Avestan"⟩,
  ⟨"af", "afr", "Afrikaans"⟩, ⟨"ak", "aka", "Akan"⟩, ⟨"am", "amh", "Amharic"⟩,
  ⟨"an", "arg", "Aragonese"⟩, ⟨"ar", "ara", "Arabic"⟩, ⟨"as", "asm", "Assamese"⟩,
  ⟨"av", "ava", "Avaric"⟩, ⟨"ay", "aym", "Aymara"⟩, ⟨"az", "aze", "Azerbaijani"⟩,
  ⟨"ba", "bak", "Bashkir"⟩, ⟨"be", "bel", "Belarusian"⟩, ⟨"bg", "bul", "Bulgarian"⟩,
  ⟨"bi", "bis", "Bislama"⟩, ⟨"bm", "bam", "Bambara"⟩, ⟨"bn", "ben", "Bengali"⟩,
  ⟨"bo", "bod", "Tibetan"⟩, ⟨"br", "bre", "Breton"⟩, ⟨"bs", "bos", "Bosnian"⟩,
  ⟨"ca", "cat", "Catalan"⟩, ⟨"ce", "che", "Chechen"⟩, ⟨"ch", "cha", "Chamorro"⟩,
  ⟨"co", "cos", "Corsican"⟩, ⟨"cr", "cre", "Cree"⟩, ⟨"cs", "ces", "Czech"⟩,
  ⟨"cu", "chu", "Church Slavic"⟩, ⟨"cv", "chv", "Chuvash"⟩, ⟨"cy", "cym", "Welsh"⟩,
  ⟨"da", "dan", "Danish"⟩, ⟨"de", "deu", "German"⟩, ⟨"dv", "div", "Dhivehi"⟩,
  ⟨"dz", "dzo", "Dzongkha"⟩, ⟨"ee", "ewe", "Ewe"⟩, ⟨"el", "ell", "Modern Greek"⟩,
  ⟨"en", "eng", "English"⟩, ⟨"eo", "epo", "Esperanto"⟩, ⟨"es", "spa", "Spanish"⟩,
  ⟨"et", "est", "Estonian"⟩, ⟨"eu", "eus", "Basque"⟩, ⟨"fa", "fas", "Persian"⟩,
  ⟨"ff", "ful", "Fulah"⟩, ⟨"fi", "fin", "Finnish"⟩, ⟨"fj", "fij", "Fijian"⟩,
  ⟨"fo", "fao", "Faroese"⟩, ⟨"fr", "fra", "French"⟩, ⟨"fy", "fry", "Western Frisian"⟩,
  ⟨"ga", "gle", "Irish"⟩, ⟨"gd", "gla", "Scottish Gaelic"⟩, ⟨"gl", "glg", "Galician"⟩,
  ⟨"gn", "grn", "Guarani"⟩, ⟨"gu", "guj", "Gujarati"⟩, ⟨"gv", "glv", "Manx"⟩,
  ⟨"ha", "hau", "Hausa"⟩, ⟨"he", "heb", "Hebrew"⟩, ⟨"hi", "hin", "Hindi"⟩,
  ⟨"ho", "hmo", "Hiri Motu"⟩, ⟨"hr", "hrv", "Croatian"⟩, ⟨"ht", "hat", "Haitian"⟩,
  ⟨"hu", "hun", "Hungarian"⟩, ⟨"hy", "hye", "Armenian"⟩, ⟨"hz", "her", "Herero"⟩,
  ⟨"ia", "ina", "Interlingua"⟩, ⟨"id", "ind", "Indonesian"⟩, ⟨"ie", "ile", "Interlingue"⟩,
  ⟨"ig", "ibo", "Igbo"⟩, ⟨"ii", "iii", "Sichuan Yi"⟩, ⟨"ik", "ipk", "Inupiaq"⟩,
  ⟨"io", "ido", "Ido"⟩, ⟨"is", "isl", "Icelandic"⟩, ⟨"it", "ita", "Italian"⟩,
  ⟨"iu", "iku", "Inuktitut"⟩, ⟨"ja", "jpn", "Japanese"⟩, ⟨"jv", "jav", "Javanese"⟩,
  ⟨"ka", "kat", "Georgian"⟩, ⟨"kg", "kon", "Kongo"⟩, ⟨"ki", "kik", "Kikuyu"⟩,
  ⟨"kj", "kua", "Kuanyama"⟩, ⟨"kk", "kaz", "Kazakh"⟩, ⟨"kl", "kal", "Kalaallisut"⟩,
  ⟨"km", "khm", "Khmer"⟩, ⟨"kn", "kan", "Kannada"⟩, ⟨"ko", "kor", "Korean"⟩,
  ⟨"kr", "kau", "Kanuri"⟩, ⟨"ks", "kas", "Kashmiri"⟩, ⟨"ku", "kur", "Kurdish"⟩,
  ⟨"kv", "kom", "Komi"⟩, ⟨"kw", "cor", "Cornish"⟩, ⟨"ky", "kir", "Kirghiz"⟩, ⟨"la", "lat", "Latin"⟩,
  ⟨"lb", "ltz", "Luxembourgish"⟩, ⟨"lg", "lug", "Ganda"⟩, ⟨"li", "lim", "Limburgan"⟩,
  ⟨"ln", "lin", "Lingala"⟩, ⟨"lo", "lao", "Lao"⟩, ⟨"lt", "lit", "Lithuanian"⟩,
  ⟨"lu", "lub", "Luba-Katanga"⟩, ⟨"lv", "lav", "Latvian"⟩, ⟨"mg", "mlg", "Malagasy"⟩,
  ⟨"mh", "mah", "Marshallese"⟩, ⟨"mi", "mri", "Maori"⟩, ⟨"mk", "mkd", "Macedonian"⟩,
  ⟨"ml", "mal", "Malayalam"⟩, ⟨"mn", "mon", "Mongolian"⟩, ⟨"mr", "mar", "Marathi"⟩,
  ⟨"ms", "msa", "Malay"⟩, ⟨"mt", "mlt", "Maltese"⟩, ⟨"my", "mya", "Burmese"⟩,
  ⟨"na", "nau", "Nauru"⟩, ⟨"nb", "nob", "Norwegian Bokmål"⟩, ⟨"nd", "nde", "North Ndebele"⟩,
  ⟨"ne", "nep", "Nepali"⟩, ⟨"ng", "ndo", "Ndonga"⟩, ⟨"nl", "nld", "Dutch"⟩,
  ⟨"nn", "nno", "Norwegian Nynorsk"⟩, ⟨"no", "nor", "Norwegian"⟩, ⟨"nr", "nbl", "South Ndebele"⟩,
  ⟨"nv", "nav", "Navajo"⟩, ⟨"ny", "nya", "Nyanja"⟩, ⟨"oc", "oci", "Occitan"⟩,
  ⟨"oj", "oji", "Ojibwa"⟩, ⟨"om", "orm", "Oromo"⟩, ⟨"or", "ori", "Oriya"⟩,
  ⟨"os", "oss", "Ossetian"⟩, ⟨"pa", "pan", "Panjabi"⟩, ⟨"pi", "pli", "Pali"⟩,
  ⟨"pl", "pol", "Polish"⟩, ⟨"ps", "pus", "Pushto"⟩, ⟨"pt", "por", "Portuguese"⟩,
  ⟨"qu", "que", "Quechua"⟩, ⟨"rm", "roh", "Romansh"⟩, ⟨"rn", "run", "Rundi"⟩,
  ⟨"ro", "ron", "Romanian"⟩, ⟨"ru", "rus", "Russian"⟩, ⟨"rw", "kin", "Kinyarwanda"⟩,
  ⟨"sa", "san", "Sanskrit"⟩, ⟨"sc", "srd", "Sardinian"⟩, ⟨"sd", "snd", "Sindhi"⟩,
  ⟨"se", "sme", "Northern Sami"⟩, ⟨"sg", "sag", "Sango"⟩, ⟨"sh", "hbs", "Serbo-Croatian"⟩,
  ⟨"si", "sin", "Sinhala"⟩, ⟨"sk", "slk", "Slovak"⟩, ⟨"sl", "slv", "Slovenian"⟩,
  ⟨"sm", "smo", "Samoan"⟩, ⟨"sn", "sna", "Shona"⟩, ⟨"so", "som", "Somali"⟩,
  ⟨"sq", "sqi", "Albanian"⟩, ⟨"sr", "srp", "Serbian"⟩, ⟨"ss", "ssw", "Swati"⟩,
  ⟨"st", "sot", "Southern Sotho"⟩, ⟨"su", "sun", "Sundanese"⟩, ⟨"sv", "swe", "Swedish"⟩,
  ⟨"sw", "swa", "Swahili"⟩, ⟨"ta", "tam", "Tamil"⟩, ⟨"te", "tel", "Telugu"⟩, ⟨"tg", "tgk", "Tajik"⟩,
  ⟨"th", "tha", "Thai"⟩, ⟨"ti", "tir", "Tigrinya"⟩, ⟨"tk", "tuk", "Turkmen"⟩,
  ⟨"tl", "tgl", "Tagalog"⟩, ⟨"tn", "tsn", "Tswana"⟩, ⟨"to", "ton", "Tonga"⟩,
  ⟨"tr", "tur", "Turkish"⟩, ⟨"ts", "tso", "Tsonga"⟩, ⟨"tt", "tat", "Tatar"⟩, ⟨"tw", "twi", "Twi"⟩,
  ⟨"ty", "tah", "Tahitian"⟩, ⟨"ug", "uig", "Uighur"⟩, ⟨"uk", "ukr", "Ukrainian"⟩,
  ⟨"ur", "urd", "Urdu"⟩, ⟨"uz", "uzb", "Uzbek"⟩, ⟨"ve", "ven", "Venda"⟩,
  ⟨"vi", "vie", "Vietnamese"⟩, ⟨"vo", "vol", "Volapük"⟩, ⟨"wa", "wln", "Walloon"⟩,
  ⟨"wo", "wol", "Wolof"⟩, ⟨"xh", "xho", "Xhosa"⟩, ⟨"yi", "yid", "Yiddish"⟩, ⟨"yo", "yor", "Yoruba"⟩,
  ⟨"za", "zha", "Zhuang"⟩, ⟨"zh", "zho", "Chinese"⟩, ⟨"zu", "zul", "Zulu"⟩
]

/-- What is known of languages, asked by codes in lower case. -/
class Registry where
  /-- The three-letter code of the language with a two-letter code. -/
  part3? : Text → Option Text
  /-- The English name of the language with a three-letter code. -/
  name? : Text → Option Text

/-- The registry of the languages with a two-letter code. -/
instance Registry.standard : Registry where
  part3? code := (table.find? (·.part1 = code)).map Language.part3
  name? code := (table.find? (·.part3 = code)).map Language.name

/-- Bibliographic codes with the three-letter code of the same language. -/
def bibliographic : List (Text × Text) := [
  ("fre", "fra"), ("ger", "deu"), ("dut", "nld"), ("gre", "ell"), ("chi", "zho"), ("cze", "ces"),
  ("ice", "isl"), ("alb", "sqi"), ("arm", "hye"), ("baq", "eus"), ("bur", "mya"), ("per", "fas"),
  ("geo", "kat"), ("may", "msa"), ("mac", "mkd"), ("rum", "ron"), ("slo", "slk"), ("wel", "cym")
]

end Language
end Lectern
