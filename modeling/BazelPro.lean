import BazelPro.C.Memory
import BazelPro.C.Layout
import BazelPro.C.Int32
import BazelPro.C.Socket
import BazelPro.C.Strings
import BazelPro.C.Printf
import BazelPro.C.Hex
import BazelPro.C.Members
import BazelPro.Lib.Access
import BazelPro.Lib.CyclicBuffer
import BazelPro.Lib.Delimited
import BazelPro.Lib.Journal
import BazelPro.Lib.Padding
import BazelPro.Lib.Packed
import BazelPro.Lib.PartialRun
import BazelPro.Lib.Positional
import BazelPro.Lib.ShiftRegister
import BazelPro.Lib.Sink
import BazelPro.Lib.Walk
import BazelPro.Utils.Dump
import BazelPro.Utils.DumpText
import BazelPro.Utils.Readback
import BazelPro.Utils.Hexdump
import BazelPro.Hk.WireFormat
import BazelPro.Hk.Requests
import BazelPro.Hk.Server
import BazelPro.Hk.Protocol
import BazelPro.Hk.Order
import BazelPro.Hk.Identifiers
import BazelPro.Hk.Packets
import BazelPro.Hk.Stale
import BazelPro.Jw.Answers
import BazelPro.Jw.Shapes
import BazelPro.Jw.LocalCopy
import BazelPro.Jw.Documents
import BazelPro.Jw.Turns
import BazelPro.Addressing
import BazelPro.Uthread.Thread
import BazelPro.Uthread.Running
import BazelPro.Tmp.Crc32
import BazelPro.Tmp.Remainder
import BazelPro.Tmp.Shm
import BazelPro.Tmp.History
import BazelPro.Tmp.Writer
import BazelPro.Tmp.Interleaving
import BazelPro.Tmp.Acceptance
import BazelPro.Tmp.IndexRange
import BazelPro.Tmp.Burst
import BazelPro.Tmp.Edge
import BazelPro.Tmp.CrossMap
import BazelPro.Tmp.CrossLaw
import BazelPro.Tmp.CrossFound
import BazelPro.Zlib.Signal
import BazelPro.Zlib.Deregister
import BazelPro.Zlib.ResetDefault
import BazelPro.Zlib.TableRange
import BazelPro.Print.Itoa
import BazelPro.Print.Directives
import BazelPro.Print.FullText
import BazelPro.Print.Scanning
import BazelPro.Print.Prefix
import BazelPro.Print.Printer
import BazelPro.Print.BufferLaw
import BazelPro.Print.OneCall
import BazelPro.Print.Formatter
import BazelPro.Print.Source
import BazelPro.Print.Field
import BazelPro.Print.Integer
import BazelPro.Print.Digits
import BazelPro.Print.Signed
import BazelPro.Print.Unsigned
import BazelPro.Print.Strings
import BazelPro.Print.Widths
import BazelPro.Print.Long
import BazelPro.Print.Scratch
import BazelPro.Print.Text
import BazelPro.Print.Callstack
import BazelPro.Print.ErrorDump
import BazelPro.Print.ErrorRows
import BazelPro.Print.ErrorLayout
import BazelPro.Print.Template
import BazelPro.Print.Siginfo
import BazelPro.Print.ErrorRecord
import BazelPro.Print.FatalRecord
import BazelPro.Zlib.FatalSignals
import BazelPro.Zlib.FatalRecords
import BazelPro.Zlib.DefaultSignals
import BazelPro.Zlib.Atomicity
