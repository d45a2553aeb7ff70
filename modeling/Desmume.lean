import Desmume.Arm.AccessCycles
import Desmume.Arm.BlockLoad
import Desmume.Arm.BlockRoundTrip
import Desmume.Arm.CpuDefs
import Desmume.Arm.DataProcessing
import Desmume.Arm.ExceptionReturn
import Desmume.Arm.Exceptions
import Desmume.Arm.HandlerCycles
import Desmume.Arm.LoadStore
import Desmume.Arm.MeteredHandlers
import Desmume.Arm.Multiply
import Desmume.Arm.RegisterBanks
import Desmume.Arm.Shifter
import Desmume.Arm.StickyOverflow
import Desmume.Arm.Thumb
import Desmume.Arm.ThumbAlu
import Desmume.Arm.ThumbEncoding
import Desmume.Arm.ThumbMemory
import Desmume.Arm.ThumbRefinement
import Desmume.Arm.UserTransfer
import Desmume.Backup.BackupDefs
import Desmume.Backup.NoGba
import Desmume.Backup.SpiMemory
import Desmume.Bios.BitUnPack
import Desmume.Bios.Crc16
import Desmume.Bios.Decompression
import Desmume.Bios.DiffFilter
import Desmume.Bios.Emission
import Desmume.Bios.HuffmanOutput
import Desmume.Bios.HuffmanWalk
import Desmume.Bios.Lz10
import Desmume.Bios.Ram
import Desmume.Bios.SwiDefs
import Desmume.Bios.SwiIsolation
import Desmume.Bios.SwiMemory
import Desmume.Bios.UnCompHuffman
import Desmume.Card.CompactFlash
import Desmume.Card.FsNitro
import Desmume.Card.GbaFlash
import Desmume.Card.GcBus
import Desmume.Card.GcTransfer
import Desmume.Card.NitroNames
import Desmume.Card.RomReads
import Desmume.Card.SecureArea
import Desmume.Cheat.ArConditionals
import Desmume.Cheat.ArDefs
import Desmume.Cheat.ArLoops
import Desmume.Cheat.ArParameters
import Desmume.Cheat.ArTermination
import Desmume.Cheat.CheatItem
import Desmume.Cheat.ExportCodes
import Desmume.Cheat.ExportDefs
import Desmume.Cheat.ExportSearch
import Desmume.Cheat.ListOps
import Desmume.Cheat.ListRefinement
import Desmume.Clock.BufferBounds
import Desmume.Clock.RtcDefs
import Desmume.Clock.Serial
import Desmume.Clock.SerialRegisters
import Desmume.Cp15.Cp15Defs
import Desmume.Cp15.Protection
import Desmume.Dma.ControlRegister
import Desmume.Dma.DmaDefs
import Desmume.Dma.DmaExec
import Desmume.Dma.DmaGxFifo
import Desmume.Firmware.BootCode
import Desmume.Firmware.DummyFirmware
import Desmume.Firmware.FirmwareDefs
import Desmume.Firmware.Flash
import Desmume.Firmware.Key1
import Desmume.Firmware.UserSettings
import Desmume.Geometry.ClipperDefs
import Desmume.Geometry.Gfx3dRestore
import Desmume.Geometry.Gfx3dRoundTrip
import Desmume.Geometry.Gfx3dSave
import Desmume.Geometry.Gfx3dState
import Desmume.Geometry.GxFifo
import Desmume.Geometry.GxStatus
import Desmume.Geometry.GxStatusLoad
import Desmume.Geometry.GxfHardware
import Desmume.Geometry.MatrixKernels
import Desmume.Geometry.MatrixStack
import Desmume.Geometry.PolygonSort
import Desmume.Geometry.StackCommands
import Desmume.Geometry.Strips
import Desmume.Geometry.SubmittedPolygons
import Desmume.Geometry.SwapBarrier
import Desmume.Geometry.VertexAssembly
import Desmume.Geometry.VertexBounds
import Desmume.Geometry.VertexDefs
import Desmume.Ipc.FifoDefs
import Desmume.Ipc.FifoInvariant
import Desmume.Ipc.Sync
import Desmume.Library.Alu
import Desmume.Library.Assembly
import Desmume.Library.BankedFile
import Desmume.Library.Barrier
import Desmume.Library.Binary32
import Desmume.Library.BitFields
import Desmume.Library.ByteFile
import Desmume.Library.CString
import Desmume.Library.Channel
import Desmume.Library.Chunks
import Desmume.Library.CircularMemory
import Desmume.Library.CompressedStream
import Desmume.Library.Crc
import Desmume.Library.Cutting
import Desmume.Library.Feistel
import Desmume.Library.FlatMemory
import Desmume.Library.Interleaving
import Desmume.Library.Ledger
import Desmume.Library.Literals
import Desmume.Library.LittleEndian
import Desmume.Library.Loop
import Desmume.Library.PartialRun
import Desmume.Library.RingBuffer
import Desmume.Library.Run
import Desmume.Library.Scatter
import Desmume.Library.SeenRun
import Desmume.Library.SignedWord
import Desmume.Library.SortedRange
import Desmume.Library.SquareRoot
import Desmume.Library.Staging
import Desmume.Library.Table
import Desmume.Library.WordParts
import Desmume.Machine.Interrupts
import Desmume.Machine.Task
import Desmume.Machine.Types
import Desmume.MathUnit.DivSqrtCoherence
import Desmume.MathUnit.DivSqrtDefs
import Desmume.MathUnit.SquareRootLoop
import Desmume.Memory.MmuAccess
import Desmume.Memory.MmuCells
import Desmume.Memory.MmuDefs
import Desmume.Memory.MmuLaw
import Desmume.Raster.DrawScanline
import Desmume.Raster.EdgeStep
import Desmume.Raster.PixelDefs
import Desmume.Raster.PixelRuns
import Desmume.Raster.PostProcess
import Desmume.Raster.RasterUnits
import Desmume.Raster.ShapeEngine
import Desmume.Raster.SortVerts
import Desmume.Raster.TexCache
import Desmume.Raster.TexCoherence
import Desmume.Raster.TexSpans
import Desmume.SaveState.CheckGuess
import Desmume.SaveState.ChunkFile
import Desmume.SaveState.ChunkTermination
import Desmume.SaveState.Emufile
import Desmume.SaveState.EmufileRefinement
import Desmume.SaveState.Fields
import Desmume.SaveState.Sformat
import Desmume.SaveState.SformatRoundTrip
import Desmume.Sound.AdpcmDecoding
import Desmume.Sound.AdpcmDefs
import Desmume.Sound.AdpcmHeader
import Desmume.Sound.AdpcmRuns
import Desmume.Sound.CaptureRuns
import Desmume.Sound.ChannelAgreement
import Desmume.Sound.ChannelParts
import Desmume.Sound.KeyOnHistory
import Desmume.Sound.LoopPoints
import Desmume.Sound.MixerDefs
import Desmume.Sound.MixerRuns
import Desmume.Sound.OutputBuffer
import Desmume.Sound.SpuDefs
import Desmume.Sound.SpuFields
import Desmume.Sound.SpuFifo
import Desmume.Sound.SpuReads
import Desmume.Sound.SpuWrites
import Desmume.Timers.TimerChain
import Desmume.Timers.TimerDefs
import Desmume.Timers.TimerHalves
import Desmume.Timers.TimerRead
import Desmume.Timing.CacheController
import Desmume.Timing.FrameEnd
import Desmume.Timing.HstartDefs
import Desmume.Timing.SchedulerDefs
import Desmume.Timing.SchedulerOrder
import Desmume.Video.BrightnessShortcut
import Desmume.Video.Capture
import Desmume.Video.Compositing
import Desmume.Video.Display3D
import Desmume.Video.FinalColor
import Desmume.Video.LineDefs
import Desmume.Video.Mosaic
import Desmume.Video.PermissiveWindows
import Desmume.Video.RenderLine
import Desmume.Video.RotScale
import Desmume.Video.ScanlineDefs
import Desmume.Video.SpriteBounds
import Desmume.Video.SpriteDefs
import Desmume.Video.SpriteRotation
import Desmume.Video.TextBG
import Desmume.Vram.ExtPalSlots
import Desmume.Vram.LcdMap
import Desmume.Vram.VramDefs
import Desmume.Vram.VramInvariant
