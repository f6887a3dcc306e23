import KemtlsMavlink.Library.Machine
import KemtlsMavlink.Library.Memory
import KemtlsMavlink.Library.HashChain
import KemtlsMavlink.Session.Crypto
import KemtlsMavlink.Session.Messages
import KemtlsMavlink.Session.Transcript
import KemtlsMavlink.Session.State
import KemtlsMavlink.Session.Hello
import KemtlsMavlink.Session.PkChunk
import KemtlsMavlink.Session.CtAck
import KemtlsMavlink.Session.Tick
import KemtlsMavlink.Session.Finish
import KemtlsMavlink.Session.Step
import KemtlsMavlink.Session.Transmit
import KemtlsMavlink.Session.Fragments
import KemtlsMavlink.Session.Moves
import KemtlsMavlink.Session.Phase
import KemtlsMavlink.Session.Sha256
import KemtlsMavlink.Session.Sample
import KemtlsMavlink.Session.Binding
import KemtlsMavlink.Session.Encapsulation
import KemtlsMavlink.Session.Reassembly
import KemtlsMavlink.Session.WholeKeys
import KemtlsMavlink.Session.Hygiene
import KemtlsMavlink.Session.Authentication
import KemtlsMavlink.Controller.Signing
import KemtlsMavlink.Controller.Channels
import KemtlsMavlink.Controller.KeyRelease
import KemtlsMavlink.Controller.SigningKeys
import KemtlsMavlink.Controller.Persistence
import KemtlsMavlink.Controller.ActiveSession
import KemtlsMavlink.Controller.Unsigned
import KemtlsMavlink.Controller.Timestamps
import KemtlsMavlink.DataPlane.Keystream
import KemtlsMavlink.Library.XorStream
import KemtlsMavlink.DataPlane.ChaCha20
import KemtlsMavlink.Library.Dispenser
import KemtlsMavlink.Nonce.SenderCtx
import KemtlsMavlink.Library.SeenWindow
import KemtlsMavlink.Library.Bitmap
import KemtlsMavlink.Nonce.ReplayWindow
import KemtlsMavlink.Nonce.Rekey
import KemtlsMavlink.Kem.Randombytes
import KemtlsMavlink.Kem.ApKem
import KemtlsMavlink.Session.Secrets
import KemtlsMavlink.Library.ReadLoop
import KemtlsMavlink.Kem.Entropy
import KemtlsMavlink.Library.Window
import KemtlsMavlink.Session.Sending
import KemtlsMavlink.Session.Streams
import KemtlsMavlink.Session.Progress
import KemtlsMavlink.Session.Flow
import KemtlsMavlink.Session.WaitCf
import KemtlsMavlink.Session.Acked
import KemtlsMavlink.Session.Retries
import KemtlsMavlink.Session.Ciphertexts
import KemtlsMavlink.Library.Mask
import KemtlsMavlink.Session.AllOrNothing
import KemtlsMavlink.Session.FreshStart
import KemtlsMavlink.Session.KeyLoad
import KemtlsMavlink.Library.Checked
import KemtlsMavlink.Session.Bounds
import KemtlsMavlink.Session.InRange
import KemtlsMavlink.Session.SelectiveAck
import KemtlsMavlink.Session.Delivery
import KemtlsMavlink.Library.Crc
import KemtlsMavlink.Library.CrcBurst
import KemtlsMavlink.Library.CrcRemainder
import KemtlsMavlink.Library.LittleEndian
import KemtlsMavlink.Kem.KeyFile
import KemtlsMavlink.Kem.KeyFileRoundTrip
import KemtlsMavlink.Kem.KeyFileAgreement
import KemtlsMavlink.Kem.KeyFileCorruption
import KemtlsMavlink.Kem.KeyFileOutputs
import KemtlsMavlink.Library.Files
import KemtlsMavlink.Kem.KeyFileReplacement
import KemtlsMavlink.Kem.Crc32
import KemtlsMavlink.Library.TwoRuns
import KemtlsMavlink.Session.Foreign
import KemtlsMavlink.Library.PyBytes
import KemtlsMavlink.Capture.MavFrames
import KemtlsMavlink.Capture.MavStream
import KemtlsMavlink.Capture.ConPayload
import KemtlsMavlink.Capture.Decode
import KemtlsMavlink.Capture.Encapsulation
import KemtlsMavlink.Library.Binary64
import KemtlsMavlink.Capture.Pcapng
import KemtlsMavlink.Capture.PcapngFile
import KemtlsMavlink.Capture.StatusField
import KemtlsMavlink.Library.Gf2
import KemtlsMavlink.Library.ConstantTime
import KemtlsMavlink.Library.Coefficients
import KemtlsMavlink.Library.SubsetSums
import KemtlsMavlink.Library.BerlekampMassey
import KemtlsMavlink.Library.KeyEquation
import KemtlsMavlink.Library.WalshHadamard
import KemtlsMavlink.Hqc.Gf
import KemtlsMavlink.Hqc.GfProduct
import KemtlsMavlink.Hqc.GfField
import KemtlsMavlink.Hqc.Fft
import KemtlsMavlink.Hqc.FftCorrect
import KemtlsMavlink.Hqc.ErrorPoly
import KemtlsMavlink.Hqc.ReedSolomon
import KemtlsMavlink.Hqc.Locator
import KemtlsMavlink.Hqc.Codeword
import KemtlsMavlink.Hqc.ErrorValues
import KemtlsMavlink.Hqc.ReedSolomonCorrect
import KemtlsMavlink.Hqc.ReedMuller
import KemtlsMavlink.Hqc.ReedMullerCorrect
import KemtlsMavlink.Hqc.CodeCorrect
import KemtlsMavlink.Library.Sponge
import KemtlsMavlink.Hqc.Fips202
import KemtlsMavlink.Hqc.Incremental
import KemtlsMavlink.Library.Keccak
import KemtlsMavlink.Hqc.Keccak
import KemtlsMavlink.Library.Sampling
import KemtlsMavlink.Library.XorSum
import KemtlsMavlink.Hqc.Vector
import KemtlsMavlink.Hqc.Kem
import KemtlsMavlink.Hqc.Sampler
import KemtlsMavlink.Hqc.Bits
import KemtlsMavlink.Hqc.SparseProduct
import KemtlsMavlink.Hqc.Parsing
import KemtlsMavlink.Hqc.Noise
import KemtlsMavlink.Hqc.PkeCorrect
import KemtlsMavlink.Hqc.KemCorrect
import KemtlsMavlink.Kem.ApKemHqc
import KemtlsMavlink.Kem.SharedSecret
