import SessionHost.Utf8.Decoder

/-!
# Texts of octets

The command language works on texts whose characters are bytes. `Octets.ofText` spells a text byte by
byte, and `Octets.toText` reads such a spelling.
-/
namespace SessionHost.Octets

/-- The spelling of a text in octets. -/
def ofText (s : String) : String := String.ofList (Bytes.toOctets (Bytes.ofString s))

def toText (s : String) : String := Utf8.lossy (Bytes.ofOctets s.toList)

def ofBytes (bs : Bytes) : String := String.ofList (Bytes.toOctets bs)

def toBytes (s : String) : Bytes := Bytes.ofOctets s.toList

end SessionHost.Octets
