import ClientIdentity.Text.Base64.Lenient
import ClientIdentity.Text.Blank
import ClientIdentity.Text.Hex
import ClientIdentity.Text.Quoted
import ClientIdentity.Text.Utf8
import ClientIdentity.Hash.Md5
import ClientIdentity.Hash.Sha256
import ClientIdentity.Hash.Sha512
import ClientIdentity.Cipher.Aes
import ClientIdentity.Cipher.BlockPadding
import ClientIdentity.Cipher.Cbc
import ClientIdentity.Cipher.Des
import ClientIdentity.Curve.Ed25519
import ClientIdentity.Curve.Weierstrass
import ClientIdentity.Der.Reader
import ClientIdentity.Der.Value
import ClientIdentity.Pem.Scan
import ClientIdentity.Pem.Encryption
import ClientIdentity.Pem.Printer
import ClientIdentity.Pem.Section
import ClientIdentity.Key.Loading
import ClientIdentity.Certificate.Parsing
import ClientIdentity.Certificate.SelfSigned
import ClientIdentity.Environment
import ClientIdentity.FileSystem.Tree
import ClientIdentity.Client
import ClientIdentity.Handshake
import ClientIdentity.CommandLine.Parsing
import ClientIdentity.CommandLine.Execution
import ClientIdentity.Main
import ClientIdentity.Proofs.Bytes.Occurrence
import ClientIdentity.Proofs.Pem.Greedy
import ClientIdentity.Proofs.Bytes.Byte
import ClientIdentity.Proofs.Text.Base64
import ClientIdentity.Proofs.Text.Utf8
import ClientIdentity.Proofs.Text.Blank
import ClientIdentity.Proofs.Text.Split
import ClientIdentity.Proofs.ApiKey.Written
import ClientIdentity.Proofs.Der.Element
import ClientIdentity.Proofs.Bytes.Chunks
import ClientIdentity.Proofs.Cipher.Aes
import ClientIdentity.Proofs.Cipher.BlockPadding
import ClientIdentity.Proofs.Cipher.Cbc
import ClientIdentity.Proofs.Cipher.Des
import ClientIdentity.Proofs.Certificate.Layout
import ClientIdentity.Proofs.Certificate.Validity
import ClientIdentity.Proofs.Hash.Sha2
import ClientIdentity.Proofs.Certificate.SelfSigned
import ClientIdentity.Proofs.Curve.Ed25519
import ClientIdentity.Proofs.Key.Envelope
import ClientIdentity.Proofs.Run
import ClientIdentity.Proofs.Terminal
import ClientIdentity.Proofs.KeyPair
import ClientIdentity.Proofs.Handshake
import ClientIdentity.Proofs.ApiKey.Derived
import ClientIdentity.Proofs.Text.Base64.Lenient
import ClientIdentity.Proofs.Pem.Matcher
import ClientIdentity.Proofs.Text.Hex
import ClientIdentity.Proofs.Pem.Encryption
import ClientIdentity.Proofs.Pem.Decryption
import ClientIdentity.Proofs.Pem.Written
import ClientIdentity.Proofs.Pem.Segment
import ClientIdentity.Proofs.Pem.Scan
import ClientIdentity.Proofs.Pem.Section
import ClientIdentity.Proofs.Pem.Search
import ClientIdentity.Proofs.Pem.Iteration
import ClientIdentity.Proofs.Pem.Scanned
import ClientIdentity.Proofs.Pem.Progress
import ClientIdentity.Proofs.Pem.Reread
import ClientIdentity.Proofs.Pem.Interleaved
import ClientIdentity.Proofs.Pem.Skipped
import ClientIdentity.Proofs.KeyFile
import ClientIdentity.Proofs.KeyFile.Selected
import ClientIdentity.Proofs.KeyFile.Questions
import ClientIdentity.Proofs.KeyFile.Skipped
import ClientIdentity.Proofs.KeyFile.Alike
import ClientIdentity.Proofs.KeyFile.Combined
import ClientIdentity.Proofs.Bytes.Crlf
import ClientIdentity.Proofs.Text.Crlf
import ClientIdentity.Proofs.Pem.Segment.Crlf
import ClientIdentity.Proofs.Pem.Section.Crlf
import ClientIdentity.Proofs.Pem.Crlf
import ClientIdentity.Proofs.KeyFile.Crlf
import ClientIdentity.Proofs.Client
import ClientIdentity.Proofs.Pem.Overlap
import ClientIdentity.Proofs.Pem.Behind
import ClientIdentity.Proofs.KeyFile.Stable
import ClientIdentity.Proofs.CommandLine.Verbose
import ClientIdentity.Proofs.CommandLine.Transcript
import ClientIdentity.Proofs.CommandLine.Secrecy
import ClientIdentity.Proofs.Hash.Md5
import ClientIdentity.Proofs.Pem.Block
import ClientIdentity.Proofs.Pem.Encryption.Defect
import ClientIdentity.Proofs.KeyFile.Failure
import ClientIdentity.Proofs.KeyFile.Headers
import ClientIdentity.Proofs.KeyFile.Certificates
import ClientIdentity.Proofs.CommandLine.Password
import ClientIdentity.Proofs.Pem.Encryption.KeyStream
import ClientIdentity.Proofs.Credentials
import ClientIdentity.Proofs.Key.PublicKey
import ClientIdentity.Proofs.Key.Rsa
import ClientIdentity.Proofs.Pem.Reencoded
import ClientIdentity.Proofs.KeyFile.Reencoded
