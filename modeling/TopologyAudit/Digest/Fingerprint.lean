import TopologyAudit.Digest.Sha256
import TopologyAudit.Text.Utf8

/-!
# Fingerprints

The fingerprint of a text is the start of the SHA-256 digest of its UTF-8 bytes.
Surrogates are written and not refused, so every text has one.
-/

namespace TopologyAudit

/-- How many hexadecimal digits of the digest are kept. -/
def fingerprintLength : Nat := 12

/-- A short hash of a text, the same for equal texts only as far as twelve
digits tell them apart. -/
def fingerprint (t : Text) : Text :=
  ((Sha256.digest (Utf8.encode t)).flatMap fun w => Text.hex 8 w.toNat).take fingerprintLength

end TopologyAudit
