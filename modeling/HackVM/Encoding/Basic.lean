import HackVM.Encoding.Library
import HackVM.Encoding.Scheme
import HackVM.Text.Blank

/-!
# Encodings

A library of encodings that can be run: the encodings that files on the web are in, with the labels
they are known by. UTF-8, UTF-16, the single-byte encodings and those of Japanese are decoded in
full. Of the double-byte encodings of Chinese and Korean only ASCII is known, and everything else in
them becomes replacement characters.
-/

namespace HackVM

/-- An encoding. -/
structure Encoding where
  name : String
  scheme : Scheme
  labels : List String
  deriving DecidableEq, Repr

/-- All encodings. -/
def encodings : List Encoding := [
  ⟨"utf-8", .utf8,
    ["unicode-1-1-utf-8", "unicode11utf8", "unicode20utf8", "utf-8", "utf8", "x-unicode20utf8"]⟩,
  ⟨"ibm866", .singleByte SingleByte.ibm866,
    ["866", "cp866", "csibm866", "ibm866"]⟩,
  ⟨"iso-8859-2", .singleByte SingleByte.iso8859Part2,
    ["csisolatin2", "iso-8859-2", "iso-ir-101", "iso8859-2", "iso88592", "iso_8859-2",
      "iso_8859-2:1987", "l2", "latin2"]⟩,
  ⟨"iso-8859-3", .singleByte SingleByte.iso8859Part3,
    ["csisolatin3", "iso-8859-3", "iso-ir-109", "iso8859-3", "iso88593", "iso_8859-3",
      "iso_8859-3:1988", "l3", "latin3"]⟩,
  ⟨"iso-8859-4", .singleByte SingleByte.iso8859Part4,
    ["csisolatin4", "iso-8859-4", "iso-ir-110", "iso8859-4", "iso88594", "iso_8859-4",
      "iso_8859-4:1988", "l4", "latin4"]⟩,
  ⟨"iso-8859-5", .singleByte SingleByte.iso8859Part5,
    ["csisolatincyrillic", "cyrillic", "iso-8859-5", "iso-ir-144", "iso8859-5", "iso88595",
      "iso_8859-5", "iso_8859-5:1988"]⟩,
  ⟨"iso-8859-6", .singleByte SingleByte.iso8859Part6,
    ["arabic", "asmo-708", "csiso88596e", "csiso88596i", "csisolatinarabic", "ecma-114",
      "iso-8859-6", "iso-8859-6-e", "iso-8859-6-i", "iso-ir-127", "iso8859-6", "iso88596",
      "iso_8859-6", "iso_8859-6:1987"]⟩,
  ⟨"iso-8859-7", .singleByte SingleByte.iso8859Part7,
    ["csisolatingreek", "ecma-118", "elot_928", "greek", "greek8", "iso-8859-7", "iso-ir-126",
      "iso8859-7", "iso88597", "iso_8859-7", "iso_8859-7:1987", "sun_eu_greek"]⟩,
  ⟨"iso-8859-8", .singleByte SingleByte.iso8859Part8,
    ["csiso88598e", "csisolatinhebrew", "hebrew", "iso-8859-8", "iso-8859-8-e", "iso-ir-138",
      "iso8859-8", "iso88598", "iso_8859-8", "iso_8859-8:1988", "visual"]⟩,
  ⟨"iso-8859-8-i", .singleByte SingleByte.iso8859Part8,
    ["csiso88598i", "iso-8859-8-i", "logical"]⟩,
  ⟨"iso-8859-10", .singleByte SingleByte.iso8859Part10,
    ["csisolatin6", "iso-8859-10", "iso-ir-157", "iso8859-10", "iso885910", "l6", "latin6"]⟩,
  ⟨"iso-8859-13", .singleByte SingleByte.iso8859Part13,
    ["iso-8859-13", "iso8859-13", "iso885913"]⟩,
  ⟨"iso-8859-14", .singleByte SingleByte.iso8859Part14,
    ["iso-8859-14", "iso8859-14", "iso885914"]⟩,
  ⟨"iso-8859-15", .singleByte SingleByte.iso8859Part15,
    ["csisolatin9", "iso-8859-15", "iso8859-15", "iso885915", "iso_8859-15", "l9"]⟩,
  ⟨"iso-8859-16", .singleByte SingleByte.iso8859Part16,
    ["iso-8859-16"]⟩,
  ⟨"koi8-r", .singleByte SingleByte.koi8R,
    ["cskoi8r", "koi", "koi8", "koi8-r", "koi8_r"]⟩,
  ⟨"koi8-u", .singleByte SingleByte.koi8U,
    ["koi8-ru", "koi8-u"]⟩,
  ⟨"macintosh", .singleByte SingleByte.macintosh,
    ["csmacintosh", "mac", "macintosh", "x-mac-roman"]⟩,
  ⟨"windows-874", .singleByte SingleByte.windows874,
    ["dos-874", "iso-8859-11", "iso8859-11", "iso885911", "tis-620", "windows-874"]⟩,
  ⟨"windows-1250", .singleByte SingleByte.windows1250,
    ["cp1250", "windows-1250", "x-cp1250"]⟩,
  ⟨"windows-1251", .singleByte SingleByte.windows1251,
    ["cp1251", "windows-1251", "x-cp1251"]⟩,
  ⟨"windows-1252", .singleByte SingleByte.windows1252,
    ["ansi_x3.4-1968", "ascii", "cp1252", "cp819", "csisolatin1", "ibm819", "iso-8859-1",
      "iso-ir-100", "iso8859-1", "iso88591", "iso_8859-1", "iso_8859-1:1987", "l1", "latin1",
      "us-ascii", "windows-1252", "x-cp1252"]⟩,
  ⟨"windows-1253", .singleByte SingleByte.windows1253,
    ["cp1253", "windows-1253", "x-cp1253"]⟩,
  ⟨"windows-1254", .singleByte SingleByte.windows1254,
    ["cp1254", "csisolatin5", "iso-8859-9", "iso-ir-148", "iso8859-9", "iso88599", "iso_8859-9",
      "iso_8859-9:1989", "l5", "latin5", "windows-1254", "x-cp1254"]⟩,
  ⟨"windows-1255", .singleByte SingleByte.windows1255,
    ["cp1255", "windows-1255", "x-cp1255"]⟩,
  ⟨"windows-1256", .singleByte SingleByte.windows1256,
    ["cp1256", "windows-1256", "x-cp1256"]⟩,
  ⟨"windows-1257", .singleByte SingleByte.windows1257,
    ["cp1257", "windows-1257", "x-cp1257"]⟩,
  ⟨"windows-1258", .singleByte SingleByte.windows1258,
    ["cp1258", "windows-1258", "x-cp1258"]⟩,
  ⟨"x-mac-cyrillic", .singleByte SingleByte.macCyrillic,
    ["x-mac-cyrillic", "x-mac-ukrainian"]⟩,
  ⟨"gbk", .asciiOnly,
    ["chinese", "csgb2312", "csiso58gb231280", "gb2312", "gb_2312", "gb_2312-80", "gbk",
      "iso-ir-58", "x-gbk"]⟩,
  ⟨"gb18030", .asciiOnly,
    ["gb18030"]⟩,
  ⟨"big5", .asciiOnly,
    ["big5", "big5-hkscs", "cn-big5", "csbig5", "x-x-big5"]⟩,
  ⟨"euc-jp", .eucJp,
    ["cseucpkdfmtjapanese", "euc-jp", "x-euc-jp"]⟩,
  ⟨"iso-2022-jp", .iso2022Jp,
    ["csiso2022jp", "iso-2022-jp"]⟩,
  ⟨"shift_jis", .shiftJis,
    ["csshiftjis", "ms932", "ms_kanji", "shift-jis", "shift_jis", "sjis", "windows-31j",
      "x-sjis"]⟩,
  ⟨"euc-kr", .asciiOnly,
    ["cseuckr", "csksc56011987", "euc-kr", "iso-ir-149", "korean", "ks_c_5601-1987",
      "ks_c_5601-1989", "ksc5601", "ksc_5601", "windows-949"]⟩,
  ⟨"replacement", .replacement,
    ["csiso2022kr", "hz-gb-2312", "iso-2022-cn", "iso-2022-cn-ext", "iso-2022-kr", "replacement"]⟩,
  ⟨"utf-16be", .utf16 .big,
    ["unicodefffe", "utf-16be"]⟩,
  ⟨"utf-16le", .utf16 .little,
    ["csunicode", "iso-10646-ucs-2", "ucs-2", "unicode", "unicodefeff", "utf-16", "utf-16le"]⟩,
  ⟨"x-user-defined", .userDefined,
    ["x-user-defined"]⟩]

/-- The encoding of a label. White space around it and letter case do not matter. -/
def Encoding.ofLabel? (label : Text) : Option Encoding :=
  let key := Text.lower (Text.trim label)
  encodings.find? fun e => e.labels.any fun l => utf8 l == key

/-- The UTF-8 text of a list of characters. -/
def encodeUtf8 (cs : List Char) : Text := cs.flatMap String.utf8EncodeChar

/-- A decoder that looks for a byte order mark first. After a mark of UTF-8 the data is taken as it
is; one of UTF-16 says in which order the bytes are. The mark itself is dropped. -/
def overrideByMark (decoder : Decoder) : Decoder
  | 0xEF :: 0xBB :: 0xBF :: rest => .ok rest
  | 0xFF :: 0xFE :: rest => .ok (encodeUtf8 (Scheme.decode (.utf16 .little) rest))
  | 0xFE :: 0xFF :: rest => .ok (encodeUtf8 (Scheme.decode (.utf16 .big) rest))
  | data => decoder data

/-- The library of these encodings. -/
def Encoding.library : Codecs where
  Codec := Encoding
  get label :=
    match Encoding.ofLabel? label with
    | none => .error (utf8 "htmlindex: invalid encoding name")
    | some e => .ok e
  name? e := some (utf8 e.name)
  decoder e := fun data => .ok (encodeUtf8 (e.scheme.decode data))
  override := overrideByMark

end HackVM
