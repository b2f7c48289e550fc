import ShellProvider.Basic
import ShellProvider.Codec.Base64
import ShellProvider.Codec.StandardBase64
import ShellProvider.Codec.Compression
import ShellProvider.Codec.RoundTrip
import ShellProvider.Codec.Framing
import ShellProvider.Codec.OutputSize
import ShellProvider.Codec.CompressFormat
import ShellProvider.State
import ShellProvider.Streams
import ShellProvider.Session
import ShellProvider.DataPlane
import ShellProvider.Run
import ShellProvider.Outcomes
import ShellProvider.Chain
import ShellProvider.Invariant
import ShellProvider.Replies
import ShellProvider.Commands
import ShellProvider.LiveList
import ShellProvider.Registry
import ShellProvider.Safety
import ShellProvider.Calls
import ShellProvider.Unanswered
import ShellProvider.StreamTable
