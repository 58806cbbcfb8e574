import PrimitiveDB.ByteMemory
import PrimitiveDB.ErrorCodes
import PrimitiveDB.SlottedPage
import PrimitiveDB.SlottedPageLayout
import PrimitiveDB.SlottedPageMap
import PrimitiveDB.SlottedPageHistory
import PrimitiveDB.SlottedPageScan
import PrimitiveDB.ChainedTable
import PrimitiveDB.StorageState
import PrimitiveDB.FileLayer
import PrimitiveDB.FileLayerRules
import PrimitiveDB.BufferManager
import PrimitiveDB.BufferPoolResidency
import PrimitiveDB.BufferPoolFailures
import PrimitiveDB.FilePages
import PrimitiveDB.BufferCoherence
import PrimitiveDB.BufferContracts
import PrimitiveDB.BufferTransparency
import PrimitiveDB.DatabaseFiles
import PrimitiveDB.PageAllocation
import PrimitiveDB.LogicalFiles
import PrimitiveDB.ScanFilter
import PrimitiveDB.HeapFile
import PrimitiveDB.StorageContracts
import PrimitiveDB.OpenFileContracts
import PrimitiveDB.OpenFileReferences
import PrimitiveDB.HeapFileContracts
import PrimitiveDB.HeapFileMethods
import PrimitiveDB.HeapFileScanning
import PrimitiveDB.HeapChains
import PrimitiveDB.HeapCursors
import PrimitiveDB.HeapFileClients
import PrimitiveDB.HeapFilePins
import PrimitiveDB.SmoothCalls
import PrimitiveDB.HeapMaps
import PrimitiveDB.HeapTuples
import PrimitiveDB.Catalog
import PrimitiveDB.StringOrder
import PrimitiveDB.CatalogLookups
import PrimitiveDB.DatabaseImages
import PrimitiveDB.Literals
import PrimitiveDB.Queries
import PrimitiveDB.DeleteQueries
import PrimitiveDB.SelectQueries
import PrimitiveDB.JoinQueries
import PrimitiveDB.PredicateAgreement
import PrimitiveDB.ParseTrees
import PrimitiveDB.Interpreter
import PrimitiveDB.NodeKinds
import PrimitiveDB.FilterComparisons
import PrimitiveDB.SlotAccesses
import PrimitiveDB.ScanRuns
import PrimitiveDB.ScanDeletes
import PrimitiveDB.RejectedInserts
import PrimitiveDB.HeapFileCreation
import PrimitiveDB.CatalogUpdates
import PrimitiveDB.TupleWidths
import PrimitiveDB.BrokenScans
import PrimitiveDB.ScanReports
import PrimitiveDB.InsertQueries
import PrimitiveDB.FeedingLoops
import PrimitiveDB.HeapPlaces
import PrimitiveDB.GrowingSources
import PrimitiveDB.FeedingQueries
import PrimitiveDB.IntoSources
import PrimitiveDB.ClockReplacement
import PrimitiveDB.PageDisposal
import PrimitiveDB.DisposeFailures
import PrimitiveDB.AllocationFailures
import PrimitiveDB.NewPages
import PrimitiveDB.CalmRuns
import PrimitiveDB.FailedCalls
import PrimitiveDB.ClosingFiles
import PrimitiveDB.PinCounts
import PrimitiveDB.HeapFileOpening
import PrimitiveDB.CreationFailures
import PrimitiveDB.ScanMarks
import PrimitiveDB.SortedFile
import PrimitiveDB.SortOutcomes
import PrimitiveDB.SortComparisons
import PrimitiveDB.JoinHashTable
import PrimitiveDB.Partitions
import PrimitiveDB.JoinStatements
import PrimitiveDB.JoinColumns
import PrimitiveDB.InsertAccesses
import PrimitiveDB.Scanner
import PrimitiveDB.StringLiterals
import PrimitiveDB.NameCopies
import PrimitiveDB.KWayMerge
import PrimitiveDB.SortMerges
import PrimitiveDB.SortMarks
import PrimitiveDB.HeapHistories
import PrimitiveDB.LinkedChains
import PrimitiveDB.HashTables
import PrimitiveDB.DelimitedText
import PrimitiveDB.PerfLogs
import PrimitiveDB.NodePool
import PrimitiveDB.TypeFormats
import PrimitiveDB.FixedRows
import PrimitiveDB.DataGenerator
import PrimitiveDB.Lexer
import PrimitiveDB.GeneratedSchemas
import PrimitiveDB.LoadUtility
import PrimitiveDB.CreatedRelations
import PrimitiveDB.GeneratedLoads
import PrimitiveDB.RecordOrder
import PrimitiveDB.CatalogRemovals
import PrimitiveDB.DdlFailures
import PrimitiveDB.InterpreterRelations
import PrimitiveDB.RelationalTables
import PrimitiveDB.RelationalQueries
import PrimitiveDB.PrintUtility
import PrimitiveDB.DatabaseRefinement
import PrimitiveDB.CatalogRefinement
import PrimitiveDB.QueryRefinement
import PrimitiveDB.StatementRefinement
import PrimitiveDB.DatabaseProcesses
import PrimitiveDB.StatementFrames
import PrimitiveDB.ShownAnswers
import PrimitiveDB.SelectAnswers
