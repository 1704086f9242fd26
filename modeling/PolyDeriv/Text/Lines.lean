/-!
# Lines of a byte stream

A line ends at a line feed, or at a carriage return with a line feed right after it; neither is part of the line.
Bytes behind the last end of line are a line too.  A line is text if its bytes are UTF-8, whatever the other lines
hold.

As long as more bytes may follow, only the lines up to the last line feed are complete, and the bytes behind it are
pending.
-/

namespace PolyDeriv

/-- The lines of a sequence of bytes. -/
def splitLines : List UInt8 → List (List UInt8)
  | [] => []
  | 13 :: 10 :: bytes => [] :: splitLines bytes
  | b :: bytes =>
    if b = 10 then [] :: splitLines bytes
    else
      match splitLines bytes with
      | [] => [[b]]
      | line :: lines => (b :: line) :: lines

/-- The lines whose ends are among the bytes. -/
def completeLines (bytes : List UInt8) : List (List UInt8) := splitLines (bytes.reverse.dropWhile (· ≠ 10)).reverse

/-- The bytes behind the last line feed. -/
def pendingBytes (bytes : List UInt8) : List UInt8 := (bytes.reverse.takeWhile (· ≠ 10)).reverse

/-- The text that the bytes of a line are the UTF-8 form of. -/
def decodeLine? (line : List UInt8) : Option String := String.fromUTF8? ⟨line.toArray⟩

end PolyDeriv
