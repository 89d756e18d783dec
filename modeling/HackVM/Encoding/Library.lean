import HackVM.Text.Case
import HackVM.Text.Quoted

/-!
# Libraries of encodings

Which encodings there are, by which labels they are known and how data in them is decoded is left to
a library (`Codecs`). A `Loader` is an encoding of a library that was chosen by its label. A byte
order mark at the start of the data takes precedence over the chosen encoding, as far as the library
heeds it.
-/

namespace HackVM

/-- What a decoder makes of some data: text in UTF-8, or why it fails. -/
abbrev Decoder := Text → Except Text Text

/-- A library of encodings. -/
structure Codecs where
  /-- The encodings of the library. -/
  Codec : Type
  /-- The encoding of a label, or why there is none. -/
  get : Text → Except Text Codec
  /-- The name of an encoding, if it has one. -/
  name? : Codec → Option Text
  /-- The decoder of an encoding. -/
  decoder : Codec → Decoder
  /-- A decoder that gives way to a byte order mark. -/
  override : Decoder → Decoder

/-- A label that names no encoding, and why. -/
structure UnknownEncoding where
  label : Text
  reason : Text
  deriving DecidableEq, Repr

/-- The message about an unknown label. -/
def UnknownEncoding.message (e : UnknownEncoding) : Text :=
  utf8 "unsupported encoding " ++ e.label.quoted ++ utf8 ": " ++ e.reason

/-- The label that is used when none is given. -/
def defaultEncodingLabel : Text := utf8 "utf-8"

/-- An encoding of a library and the name it goes by. -/
structure Loader (lib : Codecs) where
  name : Text
  codec : lib.Codec

namespace Loader

variable {lib : Codecs}

/-- The encoding of a label; the empty label stands for the default. An encoding without a name goes
by its label. -/
def ofLabel (lib : Codecs) (label : Text) : Except UnknownEncoding (Loader lib) :=
  let label := if label = [] then defaultEncodingLabel else label
  match lib.get label with
  | .error reason => .error ⟨label, reason⟩
  | .ok codec => .ok ⟨(lib.name? codec).getD label.lower, codec⟩

/-- The text of some data, in UTF-8. A byte order mark is heeded. -/
def decode (l : Loader lib) : Decoder := lib.override (lib.decoder l.codec)

end Loader

end HackVM
