import Telemetry.Crypto.Envelope
import Telemetry.FileTree

/-!
# Keys in files

A key file is a text with a key in it. A file that cannot be read is a fault of the
settings that name it, as is one without a key.
-/

namespace Telemetry

/-- The key in a file. -/
def loadKey {α : Type} (ofPem : Bytes → Except KeyFault α) (files : FileTree)
    (path : String) : Except Fault α :=
  match files.readText path with
  | .error cause => .error (.config (.key (.unreadable path cause)))
  | .ok text => (ofPem (Bytes.ofText text)).mapError fun cause => .config (.key cause)

def Encryptor.load : FileTree → String → Except Fault Encryptor := loadKey Encryptor.ofPem

def Decryptor.load : FileTree → String → Except Fault Decryptor := loadKey Decryptor.ofPem

end Telemetry
