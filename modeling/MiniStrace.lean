import MiniStrace.Lib.Text
import MiniStrace.Lib.OutBuf
import MiniStrace.Lib.Parts
import MiniStrace.Lib.Strtol
import MiniStrace.Lib.SlotTable
import MiniStrace.Lib.BoundedMap
import MiniStrace.Lib.Dict
import MiniStrace.Lib.PrefixCode
import MiniStrace.Lib.SelectionSort
import MiniStrace.Lib.Listing
import MiniStrace.Lib.Scratch
import MiniStrace.Lib.Lines
import MiniStrace.Lib.Columns
import MiniStrace.Lib.Record
import MiniStrace.ChildMem
import MiniStrace.ChildText
import MiniStrace.ChildBounds
import MiniStrace.ChildQuote
import MiniStrace.ChildArgv
import MiniStrace.Decoders.Cmsg
import MiniStrace.Decoders.CmsgBounds
import MiniStrace.Routing.Tables
import MiniStrace.Routing.Dispatch
import MiniStrace.Routing.Consistency
import MiniStrace.Decoders.FlagTables
import MiniStrace.Decoders.Flags
import MiniStrace.Decoders.Structs
import MiniStrace.Decoders.Plain
import MiniStrace.Decoders.Pure
import MiniStrace.Decoders.FlagParts
import MiniStrace.Decoders.Lossless
import MiniStrace.Decoders.CloneFlags
import MiniStrace.Decoders.Ioctl
import MiniStrace.Decoders.Registers
import MiniStrace.Decoders.StructText
import MiniStrace.Decoders.Nested
import MiniStrace.ChildReach
import MiniStrace.Decoders.ListText
import MiniStrace.Decoders.Embedded
import MiniStrace.Decoders.Sockaddr
import MiniStrace.Decoders.CmsgParse
import MiniStrace.Decoders.MsgFlags
import MiniStrace.Decoders.Arrays
import MiniStrace.Decoders.FdSet
import MiniStrace.Decoders.Getdents
import MiniStrace.SyscallNames
import MiniStrace.TraceFilter
import MiniStrace.Render
import MiniStrace.CommandLine
import MiniStrace.CommandLine.Grammar
import MiniStrace.Tracer.Step
import MiniStrace.Signals
import MiniStrace.Decoders.StructRead
import MiniStrace.Tracer.System
import MiniStrace.Tracer.Count
import MiniStrace.Tracer.Toggle
import MiniStrace.Tracer.Local
import MiniStrace.Tracer.Fidelity
import MiniStrace.Tracer.Summary
import MiniStrace.Tracer.Observer
import MiniStrace.Tracer.Display
import MiniStrace.Tracer.Annotations
import MiniStrace.Tracer.ReadBack
import MiniStrace.Tracer.SummaryText
import MiniStrace.Tracer.Accounting
import MiniStrace.Tracer.Resume
import MiniStrace.Tracer.Arch
import MiniStrace.Tracer.Errors
import MiniStrace.Exit.Slots
import MiniStrace.Exit.Inputs
import MiniStrace.Exit.Outputs
import MiniStrace.Exit.Dumps
import MiniStrace.Lines
