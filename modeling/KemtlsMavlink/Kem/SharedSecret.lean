import KemtlsMavlink.Kem.ApKemHqc
import KemtlsMavlink.Kem.Entropy
import KemtlsMavlink.Kem.KeyFileAgreement
import KemtlsMavlink.Session.Ciphertexts
import KemtlsMavlink.Session.Sample

namespace KemtlsMavlink

open Hqc Library

end KemtlsMavlink
