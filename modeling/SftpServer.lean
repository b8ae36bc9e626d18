import SftpServer.Concurrency.Atomicity
import SftpServer.Concurrency.Budget
import SftpServer.Concurrency.Completion
import SftpServer.Concurrency.FileObject
import SftpServer.Concurrency.FilesystemLock
import SftpServer.Concurrency.HandleIdentity
import SftpServer.Concurrency.LockDiscipline
import SftpServer.Concurrency.ReadReplies
import SftpServer.Concurrency.ReplyOrder
import SftpServer.Concurrency.SharedObjects
import SftpServer.Correctness.AdvertisedLengths
import SftpServer.Correctness.Containment
import SftpServer.Correctness.DirectoryPages
import SftpServer.Correctness.Durability
import SftpServer.Correctness.FilePositions
import SftpServer.Correctness.FileReads
import SftpServer.Correctness.FileService
import SftpServer.Correctness.FileServing
import SftpServer.Correctness.FileWrites
import SftpServer.Correctness.Framing
import SftpServer.Correctness.Grants
import SftpServer.Correctness.HandleServing
import SftpServer.Correctness.ListingLines
import SftpServer.Correctness.ListingSizes
import SftpServer.Correctness.OpenEffects
import SftpServer.Correctness.PacketServing
import SftpServer.Correctness.PathResolution
import SftpServer.Correctness.Provenance
import SftpServer.Correctness.Replies
import SftpServer.Correctness.ReplySizes
import SftpServer.Correctness.Requests
import SftpServer.Correctness.Transfers
import SftpServer.Correctness.WriteCapability
import SftpServer.Foundations.AtomicObject
import SftpServer.Foundations.ByteSource
import SftpServer.Foundations.Exhaustion
import SftpServer.Foundations.Interleaving
import SftpServer.Foundations.Sections
import SftpServer.Foundations.Ticking
import SftpServer.Foundations.Unwinding
import SftpServer.Sftp.Input
import SftpServer.Sftp.Loop
import SftpServer.Sftp.Options
import SftpServer.Sshd.Admission
import SftpServer.Sshd.AuthorizedKeys
import SftpServer.Sshd.Bodies
import SftpServer.Sshd.CertificatePermissions
import SftpServer.Sshd.Certificates
import SftpServer.Sshd.Connection
import SftpServer.Sshd.Logins
import SftpServer.Sshd.Serving
import SftpServer.Sshd.Shutdown
import SftpServer.Wire.Canonical
import SftpServer.Wire.Cursor
import SftpServer.Wire.Packet
import SftpServer.Wire.RoundTrip
import SftpServer.Wire.Truncation
