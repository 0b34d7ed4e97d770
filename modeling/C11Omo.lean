import C11Omo.Http2.Deferred
import C11Omo.Http2.StreamErrors
import C11Omo.Http2.Fragments
import C11Omo.Http2.Closing
import C11Omo.Http2.ClosedStreams
import C11Omo.Http2.Burst
import C11Omo.Http2.IdleStreams
import C11Omo.Http2.SettingsFrames
import C11Omo.IoUring.Polls
import C11Omo.IoUring.Clients
import C11Omo.Http2.Goaway
import C11Omo.Http2.CheckedHpack
import C11Omo.Http2.FirstFrame
import C11Omo.Http2.HeaderGrammar
import C11Omo.Http2.HeaderLists
import C11Omo.Http2.HeaderPaths
import C11Omo.Http2.CheckedConnection
import C11Omo.Http2.InBounds
import C11Omo.Http2.Ignored
import C11Omo.Http2.EncoderLengths
import C11Omo.Http2.Padding
import C11Omo.Http2.PayloadErrors
import C11Omo.Http2.OutputBound
import C11Omo.Http2.FinalErrors
import C11Omo.IoUring.Interest
import C11Omo.Zcc.Tokens
import C11Omo.Zcc.Cli
import C11Omo.IoUring.Rings
import C11Omo.Io.Epoll
import C11Omo.Io.Kqueue
import C11Omo.Io.Uring
import C11Omo.Http2.Echo
import C11Omo.Http2.Reactions
import C11Omo.Http2.Options
import C11Omo.Zcc.Driver
