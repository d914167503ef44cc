import Lexis.Encoding.Decoder
import Lexis.FileTree
import Lexis.Options
import Lexis.Reader

/-!
# Source files

A source file is opened by finding its bytes and then its encoding, so that a missing file is told
before an unknown encoding; only a null character in the name of the encoding is told before that.
The lines are decoded as the reader asks for them. Four encodings are written out; all others that
there may be are a parameter.
-/

namespace Lexis

/-- Encodings beside the four that are written out, by the names that they are asked for. One that
is found gives the text that can be read of some bytes, and the failure that cuts it short, if any.
Which line ends the text has is no matter of the encoding. -/
abbrev Codecs := String → Except Failure (List UInt8 → List Char × Option Failure)

namespace Codecs

/-- No other encodings. -/
def none : Codecs := fun name ↦ .error (Encoding.unknown name)

/-- If the encoding of a name gives up some bytes, it is because they cannot be read or decoded. -/
def Decodes (codecs : Codecs) (name : String) (bytes : List UInt8) : Prop :=
  ∀ decode f, codecs name = .ok decode → (decode bytes).2 = some f → f.endsInput = true

end Codecs

namespace Source

/-- The deliveries of bytes in an encoding of a given name. -/
def deliveries (codecs : Codecs) (encoding : String) (bytes : List UInt8) :
    Except Failure (List Delivery) :=
  match Encoding.ofName? encoding with
  | some e => .ok (deliverBytes e bytes)
  | none =>
    match codecs encoding with
    | .error f => .error f
    | .ok decode =>
      let (text, failure) := decode bytes
      .ok ((linesOf (unifyLineEnds text)).map .line ++ failure.toList.map .failure)

/-- A reader of bytes in an encoding of a given name, with the event of its opening. -/
def ofBytes (codecs : Codecs) (name encoding : String) (bytes : List UInt8)
    (listener : Option Listener) : Except Failure (Reader × List Event) :=
  match deliveries codecs encoding bytes with
  | .error f => .error f
  | .ok ds => .ok (.ofStream name (.ofDeliveries ds) listener, [.sourceOpened name encoding])

/-- A reader of what opening a path brought: the bytes of the file, or the reason why not. -/
def ofOpened (codecs : Codecs) (path : Path) (encoding : String)
    (opened : Except OpenError (List UInt8)) (listener : Option Listener) :
    Except Failure (Reader × List Event) :=
  if encoding.toList.contains '\x00' then .error Encoding.nullInName
  else
    match opened with
    | .error e => .error (e.failure path.render)
    | .ok bytes => ofBytes codecs path.render encoding bytes listener

/-- A reader of the file at a path in a tree. -/
def ofFile (codecs : Codecs) (tree : FileTree) (path : Path) (encoding : String)
    (listener : Option Listener) : Except Failure (Reader × List Event) :=
  ofOpened codecs path encoding (tree.read path) listener

end Source

end Lexis
